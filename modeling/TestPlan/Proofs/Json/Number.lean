import Mathlib.Data.List.DropRight
import Mathlib.Tactic.IntervalCases
import TestPlan.Number.Typed
import TestPlan.Proofs.Json.Layout

/-!
# Numbers in JSON documents

A number in a JSON document has a whole part without leading zeros, and may have a sign, a fraction and an exponent;
three names stand for the special numbers (`JsonNumber`). Integers in decimal are such numbers, and are read back as
they were (`JsonNumber.scalar_ofInt`). So are fractional numbers as documents write them: the shortest digits of a
number do not begin with a zero, wherever the point is put (`Binary64.isNumber_write`).
-/

namespace TestPlan

namespace JsonNumber

/-- Digits of a whole part: a zero alone, or digits that do not begin with a zero. -/
def isWhole (digits : Text) : Bool := digits == "0" || (!digits.isEmpty && digits.head? != some (.char '0'))

/-- Whether a text is an exponent, or empty. -/
def isExponent : Text → Bool
  | [] => true
  | mark :: rest =>
    let digits := (Number.takeSign rest).2
    (mark == 'e' || mark == 'E') && !digits.isEmpty && digits.all Number.isDigit

/-- Whether a text can follow a whole part: a fraction, an exponent, both or nothing. -/
def isFraction : Text → Bool
  | .char '.' :: rest => !(rest.takeWhile Number.isDigit).isEmpty && isExponent (rest.dropWhile Number.isDigit)
  | text => isExponent text

/-- Whether a text is a number without a sign. -/
def isUnsigned (text : Text) : Bool :=
  isWhole (text.takeWhile Number.isDigit) && isFraction (text.dropWhile Number.isDigit)

/-- The names of the special numbers. -/
def specialNames : List Text := [jsonNumbers.nan, jsonNumbers.infinite, "-" ++ jsonNumbers.infinite]

/-- A text without a minus sign in front. -/
def dropMinus : Text → Text
  | .char '-' :: rest => rest
  | text => text

/-- Whether a text is a number. -/
def isNumber (text : Text) : Bool := specialNames.contains text || isUnsigned (dropMinus text)

end JsonNumber

/-- A number in a JSON document, as it is written. -/
structure JsonNumber where
  literal : Text
  valid : JsonNumber.isNumber literal = true

namespace Number

variable {n k : Nat}

/-- A digit in decimal is a digit. -/
theorem isDigit_of_mem_digits {s : Symbol} (h : s ∈ Text.ofChars (Nat.toDigits 10 n)) : isDigit s = true := by
  obtain ⟨c, hc, rfl⟩ := List.mem_map.mp h
  have hdigit := Nat.isDigit_of_mem_toDigits (by decide) (by decide) hc
  simpa [Char.isDigit, isDigit, Char.le_def] using hdigit

/-- A number in decimal does not begin with a zero, unless it is zero. -/
theorem head?_digits (h : 0 < n) : (Nat.toDigits 10 n).head? ≠ some '0' := by
  induction n using Nat.strong_induction_on with
  | _ n ih =>
    rw [Nat.toDigits_eq_if (by decide)]
    split
    next hlt => interval_cases n <;> decide
    next hle =>
      rw [List.head?_append_of_ne_nil _ Nat.toDigits_ne_nil]
      exact ih (n / 10) (by omega) (by omega)

/-- Reading the digits of a number in decimal gives it back. -/
theorem ofDigits_digits (n : Nat) : ofDigits 10 (Text.ofChars (Nat.toDigits 10 n)) = n := by
  have hvalue {c : Char} (hc : c ∈ Nat.toDigits 10 n) : digitValue? (.char c) = some (c.toNat - '0'.toNat) := by
    have hdigit : isDigit (.char c) = true := isDigit_of_mem_digits (List.mem_map_of_mem hc)
    rw [isDigit] at hdigit
    rw [digitValue?, if_pos hdigit]
  have hfold (digits : List Char) (hdigits : ∀ c ∈ digits, c ∈ Nat.toDigits 10 n) (start : Nat) :
      (Text.ofChars digits).foldl (fun m s => m * 10 + (digitValue? s).getD 0) start =
        Nat.ofDigitChars 10 digits start := by
    induction digits generalizing start with
    | nil => rfl
    | cons c rest ih =>
      have hc := hvalue (hdigits c List.mem_cons_self)
      rw [Nat.ofDigitChars_cons, ← ih fun d hd => hdigits d (List.mem_cons_of_mem _ hd)]
      simp only [Text.ofChars, List.map_cons, List.foldl_cons, hc, Option.getD_some, Nat.mul_comm]
  rw [ofDigits, hfold _ (fun _ hc => hc), Nat.ofDigitChars_ten_toDigits]

/-- An integer in decimal as a text. -/
theorem text_eq (m : Int) : Text.ofString (text m) =
    if m < 0 then .char '-' :: Text.ofChars (Nat.toDigits 10 m.natAbs)
    else Text.ofChars (Nat.toDigits 10 m.natAbs) := by
  rw [Text.ofString, text, String.toList_ofList]
  split <;> rfl

/-- A digit is no sign. -/
theorem takeSign_digits (n : Nat) :
    takeSign (Text.ofChars (Nat.toDigits 10 n)) = (false, Text.ofChars (Nat.toDigits 10 n)) := by
  have hdigits : ∀ s ∈ Text.ofChars (Nat.toDigits 10 n), isDigit s = true := fun s => isDigit_of_mem_digits
  unfold takeSign
  split
  next heq => exact absurd (hdigits (.char '-') (heq ▸ List.mem_cons_self)) (by decide)
  next heq => exact absurd (hdigits (.char '+') (heq ▸ List.mem_cons_self)) (by decide)
  · rfl

/-- An integer in decimal has a sign where it is negative, and digits. -/
theorem takeSign_text (m : Int) :
    takeSign (text m) = (decide (m < 0), Text.ofChars (Nat.toDigits 10 m.natAbs)) := by
  rw [text_eq]
  split
  next hneg => rw [takeSign, decide_eq_true hneg]
  next hpos => rw [takeSign_digits, decide_eq_false hpos]

/-- Reading an integer in decimal gives it back. -/
theorem readInt?_text (m : Int) : readInt? (text m) = some m := by
  have hne : Text.ofChars (Nat.toDigits 10 m.natAbs) ≠ [] := mt List.map_eq_nil_iff.mp Nat.toDigits_ne_nil
  have hall : (Text.ofChars (Nat.toDigits 10 m.natAbs)).all isDigit = true :=
    List.all_eq_true.mpr fun s => isDigit_of_mem_digits
  rw [readInt?, takeSign_text]
  simp only [List.isEmpty_eq_false_iff.mpr hne, hall, ofDigits_digits, Bool.not_true, Bool.or_self,
    decide_eq_true_eq, Bool.false_eq_true, if_false, Option.some.injEq]
  omega

end Number

namespace JsonNumber

variable {whole ending text : Text}

/-- The whole part of a number is a zero or does not begin with one. -/
theorem isWhole_iff : isWhole whole = true ↔
    whole = Text.ofString "0" ∨ (whole ≠ [] ∧ whole.head? ≠ some (.char '0')) := by
  simp [isWhole, List.isEmpty_eq_false_iff]

/-- An exponent does not begin with a digit. -/
theorem not_isDigit_of_isExponent (h : isExponent ending = true) {s : Symbol} (hs : s ∈ ending.head?) :
    Number.isDigit s = false := by
  cases ending with
  | nil => exact absurd hs (by simp)
  | cons mark rest =>
    obtain rfl : mark = s := by simpa using hs
    simp only [isExponent, Bool.and_eq_true, Bool.or_eq_true, beq_iff_eq] at h
    obtain ⟨⟨rfl | rfl, -⟩, -⟩ := h
    · rfl
    · rfl

/-- What follows a whole part does not begin with a digit. -/
theorem not_isDigit_of_isFraction (h : isFraction ending = true) {s : Symbol} (hs : s ∈ ending.head?) :
    Number.isDigit s = false := by
  unfold isFraction at h
  split at h
  · obtain rfl := Option.some.inj hs
    rfl
  · exact not_isDigit_of_isExponent h hs

/-- Digits are taken up to something that does not begin with one. -/
theorem span_digits (hdigits : ∀ s ∈ whole, Number.isDigit s = true)
    (hending : ∀ s ∈ ending.head?, Number.isDigit s = false) :
    (whole ++ ending).takeWhile Number.isDigit = whole ∧ (whole ++ ending).dropWhile Number.isDigit = ending := by
  have hstop : ending.takeWhile Number.isDigit = [] ∧ ending.dropWhile Number.isDigit = ending := by
    cases ending with
    | nil => exact ⟨rfl, rfl⟩
    | cons s rest => simp [hending s rfl]
  rw [List.takeWhile_append_of_pos hdigits, List.dropWhile_append_of_pos hdigits, hstop.1, hstop.2, List.append_nil]
  exact ⟨rfl, rfl⟩

/-- A point, digits and an exponent can follow a whole part. -/
theorem isFraction_point (hne : whole ≠ []) (hdigits : ∀ s ∈ whole, Number.isDigit s = true)
    (hending : isExponent ending = true) : isFraction (.char '.' :: (whole ++ ending)) = true := by
  obtain ⟨htake, hdrop⟩ := span_digits hdigits fun s => not_isDigit_of_isExponent hending
  rw [isFraction, htake, hdrop, List.isEmpty_eq_false_iff.mpr hne, hending]
  rfl

/-- A sign and digits behind an `e` are an exponent. -/
theorem isExponent_signed (hne : whole ≠ []) (hdigits : ∀ s ∈ whole, Number.isDigit s = true) {sign : Char}
    (hsign : sign = '-' ∨ sign = '+') : isExponent (.char 'e' :: .char sign :: whole) = true := by
  have hrest : (Number.takeSign (.char sign :: whole)).2 = whole := by
    rcases hsign with rfl | rfl
    · rfl
    · rfl
  rw [isExponent, hrest, List.isEmpty_eq_false_iff.mpr hne, List.all_eq_true.mpr hdigits]
  rfl

/-- Digits of a whole part and what can follow it are a number without a sign. -/
theorem isUnsigned_append (hdigits : ∀ s ∈ whole, Number.isDigit s = true) (hwhole : isWhole whole = true)
    (hending : isFraction ending = true) : isUnsigned (whole ++ ending) = true := by
  obtain ⟨htake, hdrop⟩ := span_digits hdigits fun s => not_isDigit_of_isFraction hending
  rw [isUnsigned, htake, hdrop, hwhole, hending]
  rfl

/-- A number without a sign does not begin with one. -/
theorem dropMinus_of_isUnsigned (h : isUnsigned text = true) : dropMinus text = text := by
  unfold dropMinus
  split
  next rest =>
    have hdash : Number.isDigit (.char '-') = false := by decide
    have hzero : Text.ofString "0" ≠ [] := by decide
    simp [isUnsigned, hdash, isWhole_iff, hzero.symm] at h
  · rfl

/-- An unsigned number is a number. -/
theorem isNumber_of_isUnsigned (h : isUnsigned text = true) : isNumber text = true := by
  rw [isNumber, dropMinus_of_isUnsigned h, h, Bool.or_true]

/-- A minus sign before an unsigned number makes a number. -/
theorem isNumber_of_negative (h : isUnsigned text = true) : isNumber (.char '-' :: text) = true := by
  rw [isNumber, dropMinus, h, Bool.or_true]

/-- Digits in decimal are a number. -/
theorem isUnsigned_digits (n : Nat) : isUnsigned (Text.ofChars (Nat.toDigits 10 n)) = true := by
  have hwhole : isWhole (Text.ofChars (Nat.toDigits 10 n)) = true := by
    rw [isWhole_iff]
    rcases Nat.eq_zero_or_pos n with rfl | hn
    · exact .inl rfl
    · refine .inr ⟨mt List.map_eq_nil_iff.mp Nat.toDigits_ne_nil, fun hhead => Number.head?_digits hn ?_⟩
      rw [Text.ofChars, List.head?_map] at hhead
      simpa using hhead
  have hempty : isFraction [] = true := rfl
  have hdigits := isUnsigned_append (fun s => Number.isDigit_of_mem_digits) hwhole hempty
  rwa [List.append_nil] at hdigits

/-- An integer as a number. -/
def ofInt (n : Int) : JsonNumber where
  literal := Number.text n
  valid := by
    rw [Number.text_eq]
    split
    · exact isNumber_of_negative (isUnsigned_digits _)
    · exact isNumber_of_isUnsigned (isUnsigned_digits _)

/-- What a number stands for: an integer where it has neither fraction nor exponent. -/
def scalar (n : JsonNumber) : Scalar :=
  match Number.readInt? n.literal with
  | some k => .int k
  | none => .float ((Number.readTypedFraction? n.literal).getD .nan)

/-- Integers are read back as they were. -/
theorem scalar_ofInt (n : Int) : (ofInt n).scalar = .int n := by
  rw [scalar, ofInt, Number.readInt?_text]

end JsonNumber

namespace Binary64

variable {mantissa : Nat} {exponent place : Int} {digits : List Char}

/-- The first unit of the grid is not zero. -/
theorem gridUnits_pos (exponent place : Int) : 0 < (gridUnits exponent place).1 := by
  unfold gridUnits
  refine Nat.mul_pos ?_ ?_
  · split
    · exact Nat.pow_pos (by decide)
    · exact Nat.one_pos
  · split
    · exact Nat.one_pos
    · exact Nat.pow_pos (by decide)

/-- A point of a grid that rounds to a positive number is not zero. -/
theorem gridPoint?_pos (hm : 0 < mantissa) {c : Nat}
    (h : gridPoint? (interval mantissa exponent) exponent place = some c) : 0 < c := by
  have hlow : 0 < (interval mantissa exponent).low := by
    unfold interval
    dsimp only
    split <;> omega
  have hunit := gridUnits_pos exponent place
  generalize interval mantissa exponent = i at h hlow
  have hzero : i.contains (gridUnits exponent place).1 0 = false := by
    have hleft := Nat.mul_pos hlow hunit
    unfold Interval.contains
    split
    · exact Bool.and_eq_false_iff.mpr (.inl (decide_eq_false (Nat.not_le.mpr hleft)))
    · exact Bool.and_eq_false_iff.mpr (.inl (decide_eq_false (Nat.not_lt_zero _)))
  refine Nat.pos_of_ne_zero ?_
  rintro rfl
  unfold gridPoint? at h
  generalize gridUnits exponent place = units at h hzero
  obtain ⟨quarter, step⟩ := units
  dsimp only at h hzero
  generalize i.value * quarter / step = below at h
  cases below with
  | zero =>
    rw [Nat.zero_mul, hzero] at h
    split at h <;> simp_all
  | succ below =>
    split at h
    · simp at h
    · simp at h
    · simp at h
    · split at h <;> simp at h

/-- The shortest decimal of a positive number is positive, if there is one. -/
theorem shortest_cases (hm : 0 < mantissa) (exponent : Int) :
    0 < (shortest mantissa exponent).coefficient ∨ shortest mantissa exponent = ⟨0, 0⟩ := by
  unfold shortest
  dsimp only
  generalize leadingPlace _ _ = place
  cases hfound : (List.range 18).findSome? fun (after : Nat) =>
      (gridPoint? (interval mantissa exponent) exponent (place - after)).map fun c =>
        Decimal.mk c (place - after) with
  | none => exact .inr rfl
  | some found =>
    obtain ⟨after, -, hafter⟩ := List.exists_of_findSome?_eq_some hfound
    obtain ⟨c, hc, rfl⟩ := Option.map_eq_some_iff.mp hafter
    exact .inl (gridPoint?_pos hm hc)

/-- Digits that do not begin with a zero. -/
structure IsLeading (digits : List Char) : Prop where
  ne_nil : digits ≠ []
  head : digits.head? ≠ some '0'
  digit : ∀ c ∈ digits, Number.isDigit (.char c) = true

/-- The significant digits of a positive decimal begin with the first one that is not zero. -/
theorem isLeading_significant {d : Decimal} (h : 0 < d.coefficient) : IsLeading (significant d).1 := by
  have hkept : (significant d).1 = (Nat.toDigits 10 d.coefficient).rdropWhile (· == '0') := rfl
  have hfirst := Number.head?_digits h
  obtain ⟨c, rest, hdigits⟩ := List.exists_cons_of_ne_nil (Nat.toDigits_ne_nil (n := d.coefficient) (b := 10))
  have hc : c ≠ '0' := fun heq => hfirst (by rw [hdigits, heq]; rfl)
  have hne : (Nat.toDigits 10 d.coefficient).rdropWhile (· == '0') ≠ [] := by
    rw [ne_eq, List.rdropWhile_eq_nil_iff, hdigits]
    exact fun hall => hc (by simpa using hall c List.mem_cons_self)
  have hfront := List.rdropWhile_prefix (· == '0') (l := Nat.toDigits 10 d.coefficient)
  rw [hkept]
  refine ⟨hne, fun hhead => hfirst ?_, fun s hs => ?_⟩
  · obtain ⟨more, hmore⟩ := hfront
    rw [← hmore, List.head?_append_of_ne_nil _ hne, hhead]
  · exact Number.isDigit_of_mem_digits (List.mem_map_of_mem (hfront.subset hs))

/-- Leading digits are digits. -/
theorem IsLeading.forall_mem (h : IsLeading digits) : ∀ s ∈ Text.ofChars digits, Number.isDigit s = true :=
  List.forall_mem_map.mpr h.digit

/-- What is left of digits in front does not begin with a zero either. -/
theorem IsLeading.take (h : IsLeading digits) {n : Nat} (hn : 0 < n) : IsLeading (digits.take n) where
  ne_nil := by simp [h.ne_nil, hn.ne']
  head := by
    rw [List.head?_take, if_neg hn.ne']
    exact h.head
  digit c hc := h.digit c (List.mem_of_mem_take hc)

/-- Zeros may follow. -/
theorem IsLeading.append_zeros (h : IsLeading digits) (n : Nat) : IsLeading (digits ++ List.replicate n '0') where
  ne_nil := by simp [h.ne_nil]
  head := by
    rw [List.head?_append_of_ne_nil _ h.ne_nil]
    exact h.head
  digit c hc := by
    rcases List.mem_append.mp hc with hc | hc
    · exact h.digit c hc
    · rw [List.eq_of_mem_replicate hc]
      rfl

/-- Digits that do not begin with a zero are a whole part. -/
theorem IsLeading.isUnsigned_append (h : IsLeading digits) {ending : Text}
    (hending : JsonNumber.isFraction ending = true) :
    JsonNumber.isUnsigned (Text.ofChars digits ++ ending) = true := by
  have hwhole : JsonNumber.isWhole (Text.ofChars digits) = true := by
    refine JsonNumber.isWhole_iff.mpr (.inr ⟨mt List.map_eq_nil_iff.mp h.ne_nil, fun hhead => h.head ?_⟩)
    rw [Text.ofChars, List.head?_map] at hhead
    simpa using hhead
  exact JsonNumber.isUnsigned_append h.forall_mem hwhole hending

/-- The exponent of a number has a sign and digits. -/
theorem isExponent_exponentText (e : Int) : JsonNumber.isExponent (Text.ofChars (exponentText e)) = true := by
  have hall : ∀ s ∈ Text.ofChars (Nat.toDigits 10 e.natAbs), Number.isDigit s = true :=
    fun s => Number.isDigit_of_mem_digits
  have hsign : (if e < 0 then '-' else '+') = '-' ∨ (if e < 0 then '-' else '+') = '+' := by
    split
    · exact .inl rfl
    · exact .inr rfl
  unfold exponentText
  refine JsonNumber.isExponent_signed ?_ ?_ hsign
  · split
    · exact List.cons_ne_nil _ _
    · exact mt List.map_eq_nil_iff.mp Nat.toDigits_ne_nil
  · split
    · exact List.forall_mem_cons.mpr ⟨rfl, hall⟩
    · exact hall

/-- Zeros are digits. -/
theorem isDigit_of_mem_zeros {n : Nat} {s : Symbol} (h : s ∈ Text.ofChars (List.replicate n '0')) :
    Number.isDigit s = true := by
  obtain ⟨c, hc, rfl⟩ := List.mem_map.mp h
  rw [List.eq_of_mem_replicate hc]
  rfl

/-- Digits behind a point and zeros. -/
theorem IsLeading.isUnsigned_below (h : IsLeading digits) (zeros : Nat) :
    JsonNumber.isUnsigned (Text.ofChars ('0' :: '.' :: List.replicate zeros '0' ++ digits)) = true := by
  have hall : ∀ s ∈ Text.ofChars (List.replicate zeros '0' ++ digits), Number.isDigit s = true := by
    rw [Text.ofChars, List.map_append]
    exact List.forall_mem_append.mpr ⟨fun s => isDigit_of_mem_zeros, h.forall_mem⟩
  have hne : Text.ofChars (List.replicate zeros '0' ++ digits) ≠ [] := by simp [Text.ofChars, h.ne_nil]
  have hempty : JsonNumber.isExponent [] = true := rfl
  have hfraction := JsonNumber.isFraction_point hne hall hempty
  have hzero : ∀ s ∈ Text.ofChars ['0'], Number.isDigit s = true := List.forall_mem_singleton.mpr rfl
  rw [List.append_nil] at hfraction
  exact JsonNumber.isUnsigned_append hzero rfl hfraction

/-- Digits with a point in or behind them. -/
theorem IsLeading.isUnsigned_around (h : IsLeading digits) {whole : Nat} (hwhole : 0 < whole) :
    JsonNumber.isUnsigned (Text.ofChars (digits.take whole ++
      List.replicate (whole - (digits.take whole).length) '0' ++
        '.' :: (if (digits.drop whole).isEmpty then ['0'] else digits.drop whole))) = true := by
  generalize hback : (if (digits.drop whole).isEmpty then ['0'] else digits.drop whole) = back
  have hne : Text.ofChars back ≠ [] := by
    rw [← hback]
    split
    · exact List.cons_ne_nil _ _
    next hdrop => exact mt List.map_eq_nil_iff.mp (by simpa using hdrop)
  have hdigit : ∀ s ∈ Text.ofChars back, Number.isDigit s = true := by
    rw [← hback]
    split
    · exact List.forall_mem_singleton.mpr rfl
    · exact List.forall_mem_map.mpr fun c hc => h.digit c (List.mem_of_mem_drop hc)
  have hempty : JsonNumber.isExponent [] = true := rfl
  have hfraction := JsonNumber.isFraction_point hne hdigit hempty
  have hnumber := ((h.take hwhole).append_zeros (whole - (digits.take whole).length)).isUnsigned_append hfraction
  simpa only [Text.ofChars, List.map_append, List.map_cons, List.append_nil] using hnumber

/-- One digit and an exponent. -/
theorem IsLeading.isUnsigned_single {d : Char} (h : IsLeading [d]) (place : Int) :
    JsonNumber.isUnsigned (Text.ofChars (d :: exponentText place)) = true :=
  h.isUnsigned_append (isExponent_exponentText place)

/-- One digit, a point with more digits, and an exponent. -/
theorem IsLeading.isUnsigned_scientific {d next : Char} {rest : List Char} (h : IsLeading (d :: next :: rest))
    (place : Int) :
    JsonNumber.isUnsigned (Text.ofChars (d :: '.' :: (next :: rest) ++ exponentText place)) = true := by
  have hmore : ∀ s ∈ Text.ofChars (next :: rest), Number.isDigit s = true :=
    (List.forall_mem_cons.mp h.forall_mem).2
  have hnumber := (h.take Nat.one_pos).isUnsigned_append
    (JsonNumber.isFraction_point (List.cons_ne_nil _ _) hmore (isExponent_exponentText place))
  simpa only [Text.ofChars, List.take_succ_cons, List.take_zero, List.map_append, List.map_cons, List.map_nil,
    List.cons_append, List.nil_append] using hnumber

/-- A positive number is written as a number without a sign. -/
theorem isUnsigned_positiveText (hm : 0 < mantissa) (exponent : Int) :
    JsonNumber.isUnsigned (Text.ofChars (positiveText jsonNumbers mantissa exponent)) = true := by
  rcases shortest_cases hm exponent with hpos | hzero
  · have hleading := isLeading_significant hpos
    unfold positiveText
    generalize significant (shortest mantissa exponent) = parts at hleading
    obtain ⟨digits, place⟩ := parts
    dsimp only at hleading ⊢
    split
    next hplace =>
      split
      next hneg => exact hleading.isUnsigned_below _
      next hnonneg => exact hleading.isUnsigned_around (by omega)
    next hplace =>
      cases digits with
      | nil => exact absurd rfl hleading.ne_nil
      | cons d rest =>
        cases rest with
        | nil => exact hleading.isUnsigned_single place
        | cons next rest => exact hleading.isUnsigned_scientific place
  · have hdecimal : positiveText jsonNumbers mantissa exponent = ['0', '.', '0'] := by
      rw [positiveText, hzero]
      rfl
    rw [hdecimal]
    rfl

/-- Fractional numbers are written as numbers. -/
theorem isNumber_write (x : Binary64) : JsonNumber.isNumber (x.write jsonNumbers) = true := by
  cases x with
  | nan => rfl
  | infinite negative => cases negative <;> rfl
  | finite negative mantissa exponent =>
    have hunsigned : JsonNumber.isUnsigned (Text.ofString (if mantissa = 0 then "0.0"
        else String.ofList (positiveText jsonNumbers mantissa exponent))) = true := by
      split
      · rfl
      next hm =>
        rw [Text.ofString, String.toList_ofList]
        exact isUnsigned_positiveText (Nat.pos_of_ne_zero hm) exponent
    rw [write, Text.ofString, String.toList_append, Text.ofChars, List.map_append]
    cases negative with
    | false => exact JsonNumber.isNumber_of_isUnsigned hunsigned
    | true => exact JsonNumber.isNumber_of_negative hunsigned

end Binary64

namespace JsonNumber

/-- A fractional number as a number. -/
def ofFloat (x : Binary64) : JsonNumber := ⟨x.write jsonNumbers, x.isNumber_write⟩

/-- The symbols of numbers and names. -/
def isPlain : Symbol → Bool
  | .char c => c.isAlphanum || c == '+' || c == '-' || c == '.'
  | .half _ => false

/-- A digit is no mark, no quote and no white space. -/
theorem isPlain_of_isDigit {s : Symbol} (h : Number.isDigit s = true) : isPlain s = true := by
  cases s with
  | half number => exact absurd h (by simp [Number.isDigit])
  | char c =>
    have hdigit : c.isDigit = true := by simpa [Char.isDigit, Number.isDigit, Char.le_def] using h
    simp [isPlain, Char.isAlphanum, hdigit]

/-- The symbols of an exponent are plain. -/
theorem isPlain_of_isExponent {text : Text} (h : isExponent text = true) : ∀ s ∈ text, isPlain s = true := by
  cases text with
  | nil => exact fun s hs => absurd hs List.not_mem_nil
  | cons mark rest =>
    simp only [isExponent, Bool.and_eq_true, Bool.or_eq_true, beq_iff_eq] at h
    obtain ⟨⟨hmark, -⟩, hdigits⟩ := h
    have hdigits : ∀ s ∈ (Number.takeSign rest).2, isPlain s = true := fun s hs =>
      isPlain_of_isDigit (List.all_eq_true.mp hdigits s hs)
    refine List.forall_mem_cons.mpr ⟨by rcases hmark with rfl | rfl <;> rfl, ?_⟩
    unfold Number.takeSign at hdigits
    split at hdigits
    · exact List.forall_mem_cons.mpr ⟨rfl, hdigits⟩
    · exact List.forall_mem_cons.mpr ⟨rfl, hdigits⟩
    · exact hdigits

/-- A text is plain if it is so behind its leading digits. -/
theorem isPlain_of_digits {text : Text} (h : ∀ s ∈ text.dropWhile Number.isDigit, isPlain s = true) :
    ∀ s ∈ text, isPlain s = true := by
  rw [← List.takeWhile_append_dropWhile (p := Number.isDigit) (l := text)]
  exact List.forall_mem_append.mpr ⟨fun s hs => isPlain_of_isDigit (List.mem_takeWhile_imp hs), h⟩

/-- The symbols of a fraction are plain. -/
theorem isPlain_of_isFraction {text : Text} (h : isFraction text = true) : ∀ s ∈ text, isPlain s = true := by
  unfold isFraction at h
  split at h
  · have hexponent := isPlain_of_isExponent (Bool.and_eq_true_iff.mp h).2
    exact List.forall_mem_cons.mpr ⟨rfl, isPlain_of_digits hexponent⟩
  · exact isPlain_of_isExponent h

/-- All symbols of a number are plain. -/
theorem isPlain_of_mem_literal (n : JsonNumber) : ∀ s ∈ n.literal, isPlain s = true := by
  have hvalid := n.valid
  rw [isNumber, Bool.or_eq_true, List.contains_iff_mem] at hvalid
  rcases hvalid with hname | hunsigned
  · have hnames : ∀ name ∈ specialNames, ∀ s ∈ name, isPlain s = true := by decide
    exact hnames _ hname
  · have hrest := isPlain_of_digits (isPlain_of_isFraction (Bool.and_eq_true_iff.mp hunsigned).2)
    unfold dropMinus at hrest
    split at hrest
    next heq =>
      rw [heq]
      exact List.forall_mem_cons.mpr ⟨rfl, hrest⟩
    · exact hrest

/-- A number is not empty. -/
theorem literal_ne_nil (n : JsonNumber) : n.literal ≠ [] := by
  intro hempty
  have hvalid := n.valid
  rw [hempty] at hvalid
  exact absurd hvalid (by decide)

end JsonNumber
end TestPlan
