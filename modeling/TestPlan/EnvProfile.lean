import TestPlan.Text.Blank
import TestPlan.Text.Split
import TestPlan.Value.Basic

/-!
# Environment profiles

A profile assigns texts to variables, one `NAME=VALUE` a line. Blank lines and lines that start with `#`
say nothing, nor do lines without `=` or without a name. The first `=` separates; blanks around name and
value do not count. A variable that is assigned again keeps its place and takes the later value.
-/

namespace TestPlan

/-- Variables with their values, in order. -/
abbrev EnvProfile := List (Text × Text)

namespace EnvProfile

/-- Assign a variable: one that is there keeps its place, a new one comes last. -/
def assign (name value : Text) : EnvProfile → EnvProfile
  | [] => [(name, value)]
  | (n, v) :: rest => if n = name then (n, value) :: rest else (n, v) :: assign name value rest

/-- The assignment that a line makes. -/
def assignment? (line : Text) : Option (Text × Text) :=
  let content := Text.trim line
  if content.head? == some '#' then none
  else do
    let (before, after) ← Text.cut? '=' content
    let name := Text.trim before
    if name.isEmpty then none else some (name, Text.trim after)

/-- Make the assignments of the second profile after those of the first. -/
def overlay (below above : EnvProfile) : EnvProfile :=
  above.foldl (fun profile (name, value) => profile.assign name value) below

/-- Making the assignments of two profiles is making those of the first and then those of the second. -/
theorem overlay_append (below first second : EnvProfile) :
    overlay below (first ++ second) = overlay (overlay below first) second := List.foldl_append

/-- The profile that a text describes. -/
def ofText (text : Text) : EnvProfile := overlay [] ((Text.lines text).filterMap assignment?)

/-- A profile as entries of a mapping. -/
def entries (profile : EnvProfile) : Entries Value :=
  profile.map fun (name, value) => (.text name, .text value)

end EnvProfile
end TestPlan
