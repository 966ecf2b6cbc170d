import TestPlan.Log
import TestPlan.Scope
import TestPlan.Text.Blank

/-!
# Placeholders

A template is a text with placeholders: two opening braces, a name without closing braces, and two
closing braces. `pieces` reads a template from left to right and takes a placeholder wherever one
starts; `source_pieces` says that the pieces are the template again. Filling a template replaces every
placeholder whose trimmed name is bound by the bound text, which is not looked at again. The others
stay as written, and each is reported. Filling is undone by the first placeholder whose value cannot be
written (`complete`).
-/

namespace TestPlan.Template

/-- A symbol of a template that starts no placeholder, or a placeholder with what its braces hold. -/
inductive Piece
  | symbol (s : Symbol)
  | placeholder (body : Text)
  deriving DecidableEq

/-- What a piece looks like in the template. -/
def Piece.source : Piece → Text
  | symbol s => [s]
  | placeholder body => .char '{' :: .char '{' :: body ++ [.char '}', .char '}']

/-- The name that a placeholder asks for. -/
def nameOf (body : Text) : Text := Text.trim body

/-- Whether a symbol may stand between the braces of a placeholder. -/
def isInner (s : Symbol) : Bool := s != '}'

/-- A placeholder at the start of a text, and what follows it. -/
def placeholder? : Text → Option (Text × Text)
  | .char '{' :: .char '{' :: rest =>
    match rest.dropWhile isInner with
    | .char '}' :: .char '}' :: after =>
      let body := rest.takeWhile isInner
      if body.isEmpty then none else some (body, after)
    | _ => none
  | _ => none

/-- A placeholder and the rest after it are the text that they were taken from. -/
theorem placeholder?_source {text body after : Text} (h : placeholder? text = some (body, after)) :
    text = (Piece.placeholder body).source ++ after := by
  unfold placeholder? at h
  split at h
  next rest =>
    split at h
    next tail htail =>
      simp only at h
      split at h
      · simp at h
      · obtain ⟨rfl, rfl⟩ : rest.takeWhile isInner = body ∧ tail = after := by simpa using h
        have hrest := List.takeWhile_append_dropWhile (p := isInner) (l := rest)
        rw [htail] at hrest
        simp [Piece.source, hrest]
    next => simp at h
  next => simp at h

/-- The rest after a placeholder is shorter than the text. -/
theorem placeholder?_length {text body after : Text} (h : placeholder? text = some (body, after)) :
    after.length < text.length := by
  rw [placeholder?_source h]
  simp [Piece.source]
  omega

/-- A template read from left to right. -/
def pieces (text : Text) : List Piece :=
  match h : placeholder? text with
  | some (body, after) =>
    have := placeholder?_length h
    .placeholder body :: pieces after
  | none =>
    match text with
    | [] => []
    | s :: rest => .symbol s :: pieces rest
termination_by text.length

/-- The pieces of a template are the template again. -/
theorem source_pieces (text : Text) : (pieces text).flatMap Piece.source = text := by
  fun_induction pieces text with
  | case1 text body after h _ ih =>
    rw [List.flatMap_cons, ih]
    exact (placeholder?_source h).symm
  | case2 => rfl
  | case3 s rest _ ih => rw [List.flatMap_cons, ih]; rfl

/-- What a piece becomes in a scope. -/
def Piece.fill (scope : Scope) : Piece → Text
  | symbol s => [s]
  | placeholder body => (scope.lookup (nameOf body)).getD (placeholder body).source

/-- The name of a placeholder that a scope does not bind. -/
def Piece.unbound? (scope : Scope) : Piece → Option Text
  | symbol _ => none
  | placeholder body => if (scope.lookup (nameOf body)).isNone then some (nameOf body) else none

/-- The warning about a name that is not bound. -/
def unboundWarning (name : Text) : Message := ⟨.warning, "Variable '" ++ name ++ "' not found"⟩

/-- Whether a piece can be replaced as far as its value can be written. -/
def Piece.isWritable (scope : Scope) : Piece → Bool
  | symbol _ => true
  | placeholder body => scope.isWritable (nameOf body)

/-- Fill a template: replace bound placeholders, and report the others in order. -/
def fill {ε : Type} (scope : Scope) (template : Text) : Run ε Text :=
  let parts := pieces template
  ⟨(parts.filterMap (Piece.unbound? scope)).map unboundWarning,
    .ok (parts.flatMap (Piece.fill scope))⟩

/-- Fill a template unless a value that it asks for cannot be written; what is reported up to the first
such value stays. -/
def complete {ε : Type} (fault : WriteFault → ε) (scope : Scope) (template : Text) : Run ε Text :=
  let parts := pieces template
  if parts.all (Piece.isWritable scope) then fill scope template
  else
    ⟨((parts.takeWhile (Piece.isWritable scope)).filterMap (Piece.unbound? scope)).map unboundWarning,
      .error (fault .tooManyDigits)⟩

/-- Fill a text value; values of other kinds are no templates. -/
def fillValue {ε : Type} (fault : WriteFault → ε) (scope : Scope) : Value → Run ε Value
  | .scalar (.text template) => .text <$> complete fault scope template
  | v => pure v

end TestPlan.Template
