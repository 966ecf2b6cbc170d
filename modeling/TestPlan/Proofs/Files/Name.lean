import TestPlan.Files.Name

/-!
# Names of files as texts

The text that stands for the name of a file stands for no other: its symbols give back the bytes that they
were read from, a character by being encoded and an escaped byte as the byte that it is
(`FileName.ofText_text`). So two entries of a directory that are listed under one text have one name.
-/

namespace TestPlan

namespace Text

/-- A first byte tells how many bytes follow and in which range the next one is. -/
theorem sequence?_cases {b low high : UInt8} {count : Nat} (h : sequence? b = some (count, low, high)) :
    count = 0 ∧ b.toNat < 0x80 ∨
    count = 1 ∧ 0xC2 ≤ b.toNat ∧ b.toNat < 0xE0 ∧ 0x80 ≤ low.toNat ∧ high.toNat ≤ 0xBF ∨
    count = 2 ∧ 0xE0 ≤ b.toNat ∧ b.toNat < 0xF0 ∧ 0x80 ≤ low.toNat ∧ high.toNat ≤ 0xBF ∧
      (b.toNat = 0xE0 → 0xA0 ≤ low.toNat) ∧ (b.toNat = 0xED → high.toNat ≤ 0x9F) ∨
    count = 3 ∧ 0xF0 ≤ b.toNat ∧ b.toNat < 0xF5 ∧ 0x80 ≤ low.toNat ∧ high.toNat ≤ 0xBF ∧
      (b.toNat = 0xF0 → 0x90 ≤ low.toNat) ∧ (b.toNat = 0xF4 → high.toNat ≤ 0x8F) := by
  have hE0 : b.toNat = 0xE0 → b = 0xE0 := fun hb => UInt8.toNat_inj.mp hb
  have hED : b.toNat = 0xED → b = 0xED := fun hb => UInt8.toNat_inj.mp hb
  have hF0 : b.toNat = 0xF0 → b = 0xF0 := fun hb => UInt8.toNat_inj.mp hb
  have hF4 : b.toNat = 0xF4 → b = 0xF4 := fun hb => UInt8.toNat_inj.mp hb
  unfold sequence? at h
  simp only [UInt8.lt_iff_toNat_lt, UInt8.reduceToNat] at h
  split at h
  · simp only [Option.some.injEq, Prod.mk.injEq] at h
    exact .inl ⟨h.1.symm, by omega⟩
  split at h
  · simp at h
  split at h
  · simp only [Option.some.injEq, Prod.mk.injEq] at h
    obtain ⟨rfl, rfl, rfl⟩ := h
    exact .inr (.inl ⟨rfl, by omega, by omega, by decide, by decide⟩)
  split at h
  · simp only [Option.some.injEq, Prod.mk.injEq] at h
    obtain ⟨rfl, rfl, rfl⟩ := h
    refine .inr (.inr (.inl ⟨rfl, by omega, by omega, ?_, ?_, fun hb => ?_, fun hb => ?_⟩))
    · split <;> decide
    · split <;> decide
    · simp [hE0 hb]
    · simp [hED hb]
  split at h
  · simp only [Option.some.injEq, Prod.mk.injEq] at h
    obtain ⟨rfl, rfl, rfl⟩ := h
    refine .inr (.inr (.inr ⟨rfl, by omega, by omega, ?_, ?_, fun hb => ?_, fun hb => ?_⟩))
    · split <;> decide
    · split <;> decide
    · simp [hF0 hb]
    · simp [hF4 hb]
  · simp at h

/-- A byte that fits is in the range for it, and those after it continue it. -/
theorem fitting_succ {low high : UInt8} {n : Nat} {bytes : List UInt8}
    (h : fitting low high (n + 1) bytes = n + 1) :
    ∃ b rest, bytes = b :: rest ∧ low.toNat ≤ b.toNat ∧ b.toNat ≤ high.toNat ∧ fitting 0x80 0xBF n rest = n := by
  cases bytes with
  | nil => simp [fitting] at h
  | cons b rest =>
    rw [fitting] at h
    split at h
    next hrange =>
      simp only [Bool.and_eq_true, decide_eq_true_eq, UInt8.le_iff_toNat_le] at hrange
      exact ⟨b, rest, rfl, hrange.1, hrange.2, by omega⟩
    · omega

/-- No more bytes are taken than should follow. -/
theorem fitting_le (low high : UInt8) (n : Nat) (bytes : List UInt8) : fitting low high n bytes ≤ n := by
  induction n generalizing low high bytes with
  | zero => simp [fitting]
  | succ n ih =>
    cases bytes with
    | nil => simp [fitting]
    | cons b rest =>
      rw [fitting]
      split
      · exact Nat.succ_le_succ (ih _ _ _)
      · omega

/-- The bytes of a character, by its code. -/
theorem utf8EncodeChar_ofNat {code : Nat} (h : code.isValidChar) : String.utf8EncodeChar (Char.ofNat code) =
    if code ≤ 0x7F then [.ofNat code]
    else if code ≤ 0x7FF then [.ofNat (code / 64 % 32 + 192), .ofNat (code % 64 + 128)]
    else if code ≤ 0xFFFF then
      [.ofNat (code / 4096 % 16 + 224), .ofNat (code / 64 % 64 + 128), .ofNat (code % 64 + 128)]
    else
      [.ofNat (code / 262144 % 8 + 240), .ofNat (code / 4096 % 64 + 128), .ofNat (code / 64 % 64 + 128),
        .ofNat (code % 64 + 128)] := by
  have hcode : (Char.ofNat code).val.toNat = code := by
    rw [Char.ofNat, dif_pos h]
    rfl
  simp only [String.utf8EncodeChar, hcode]

/-- A byte is told by its number. -/
theorem ofNat_eq_of_toNat {b : UInt8} {n : Nat} (h : n = b.toNat) : UInt8.ofNat n = b := by
  rw [h, UInt8.ofNat_toNat]

/-- A character is written as it was read. -/
theorem utf8_of_start {b : UInt8} {rest : List UInt8} {c : Char} {following : Nat}
    (h : utf8Start b rest = .char c following) : String.utf8EncodeChar c = b :: rest.take following := by
  unfold utf8Start at h
  split at h
  · simp at h
  next count low high hsequence =>
    dsimp only at h
    split at h
    · simp at h
    next hfound =>
      obtain ⟨rfl, rfl⟩ := Utf8Start.char.inj h
      have hfits : fitting low high count rest = count := by
        have := fitting_le low high count rest
        omega
      rcases sequence?_cases hsequence with ⟨rfl, hb⟩ | ⟨rfl, hlow, hhigh, hrange⟩ | ⟨rfl, hlow, hhigh, hrange⟩ |
        ⟨rfl, hlow, hhigh, hrange⟩
      · have hcode : codePoint b [] = b.toNat := rfl
        rw [List.take_zero, hcode, utf8EncodeChar_ofNat (.inl (by omega)), if_pos (by omega), UInt8.ofNat_toNat]
      · obtain ⟨b₁, rest₁, rfl, hlow₁, hhigh₁, -⟩ := fitting_succ hfits
        have hcode : codePoint b [b₁] = b.toNat % 32 * 64 + b₁.toNat % 64 := rfl
        rw [List.take_succ_cons, List.take_zero, hcode, utf8EncodeChar_ofNat (.inl (by omega)), if_neg (by omega),
          if_pos (by omega), ofNat_eq_of_toNat (b := b) (by omega), ofNat_eq_of_toNat (b := b₁) (by omega)]
      · obtain ⟨b₁, rest₁, rfl, hlow₁, hhigh₁, hfits₁⟩ := fitting_succ hfits
        obtain ⟨b₂, rest₂, rfl, hlow₂, hhigh₂, -⟩ := fitting_succ hfits₁
        have hcode : codePoint b [b₁, b₂] = (b.toNat % 16 * 64 + b₁.toNat % 64) * 64 + b₂.toNat % 64 := rfl
        simp only [UInt8.reduceToNat] at hlow₂ hhigh₂
        have hvalid : ((b.toNat % 16 * 64 + b₁.toNat % 64) * 64 + b₂.toNat % 64).isValidChar := by
          unfold Nat.isValidChar
          omega
        simp only [List.take_succ_cons, List.take_zero, hcode]
        rw [utf8EncodeChar_ofNat hvalid, if_neg (by omega), if_neg (by omega), if_pos (by omega),
          ofNat_eq_of_toNat (b := b) (by omega), ofNat_eq_of_toNat (b := b₁) (by omega),
          ofNat_eq_of_toNat (b := b₂) (by omega)]
      · obtain ⟨b₁, rest₁, rfl, hlow₁, hhigh₁, hfits₁⟩ := fitting_succ hfits
        obtain ⟨b₂, rest₂, rfl, hlow₂, hhigh₂, hfits₂⟩ := fitting_succ hfits₁
        obtain ⟨b₃, rest₃, rfl, hlow₃, hhigh₃, -⟩ := fitting_succ hfits₂
        have hcode : codePoint b [b₁, b₂, b₃] =
            ((b.toNat % 8 * 64 + b₁.toNat % 64) * 64 + b₂.toNat % 64) * 64 + b₃.toNat % 64 := rfl
        simp only [UInt8.reduceToNat] at hlow₂ hhigh₂ hlow₃ hhigh₃
        have hvalid :
            (((b.toNat % 8 * 64 + b₁.toNat % 64) * 64 + b₂.toNat % 64) * 64 + b₃.toNat % 64).isValidChar := by
          unfold Nat.isValidChar
          omega
        simp only [List.take_succ_cons, List.take_zero, hcode]
        rw [utf8EncodeChar_ofNat hvalid, if_neg (by omega), if_neg (by omega), if_neg (by omega),
          ofNat_eq_of_toNat (b := b) (by omega), ofNat_eq_of_toNat (b := b₁) (by omega),
          ofNat_eq_of_toNat (b := b₂) (by omega), ofNat_eq_of_toNat (b := b₃) (by omega)]

/-- Bytes that fit are none of the first half of all bytes. -/
theorem le_of_mem_take_fitting {low : UInt8} (hlow : 0x80 ≤ low.toNat) (high : UInt8) (n : Nat)
    (bytes : List UInt8) : ∀ b ∈ bytes.take (fitting low high n bytes), 0x80 ≤ b.toNat := by
  induction n generalizing low high bytes with
  | zero => simp [fitting]
  | succ n ih =>
    cases bytes with
    | nil => simp
    | cons b rest =>
      rw [fitting]
      split
      next hrange =>
        simp only [Bool.and_eq_true, decide_eq_true_eq, UInt8.le_iff_toNat_le] at hrange
        rw [List.take_succ_cons, List.forall_mem_cons]
        exact ⟨Nat.le_trans hlow hrange.1, ih (by decide) _ rest⟩
      · simp

/-- Faulty bytes are none of the first half of all bytes. -/
theorem le_of_mem_faulty {b : UInt8} {rest : List UInt8} {cause : Utf8Cause} {following : Nat}
    (h : utf8Start b rest = .faulty cause following) : ∀ other ∈ b :: rest.take following, 0x80 ≤ other.toNat := by
  unfold utf8Start at h
  split at h
  next hnone =>
    obtain ⟨-, rfl⟩ := Utf8Start.faulty.inj h
    have hb : ¬ b < 0x80 := by
      intro hb
      simp [sequence?, hb] at hnone
    simpa [UInt8.lt_iff_toNat_lt] using hb
  next count low high hsequence =>
    dsimp only at h
    split at h
    next hfound =>
      obtain ⟨-, rfl⟩ := Utf8Start.faulty.inj h
      have hbounds : 0x80 ≤ b.toNat ∧ 0x80 ≤ low.toNat := by
        rcases sequence?_cases hsequence with h | h | h | h <;> omega
      rw [List.forall_mem_cons]
      exact ⟨hbounds.1, le_of_mem_take_fitting hbounds.2 high count rest⟩
    · simp at h

end Text

namespace FileName

/-- A character in a name has the bytes of its encoding. -/
theorem symbolBytes_char (c : Char) : symbolBytes (.char c) = String.utf8EncodeChar c := by
  simp [symbolBytes, Symbol.isHalf, Text.utf8]

/-- The symbol that stands for a byte stands for no other. -/
theorem symbolBytes_escaped {b : UInt8} (h : 0x80 ≤ b.toNat) : symbolBytes (escaped b) = [b] := by
  have hb := b.toNat_lt
  have hcode : (escaped b).code = byteHalf + b.toNat := Symbol.code_ofCode (by simp [byteHalf]; omega)
  have hhalf : (escaped b).isHalf = true := by
    rw [escaped, Symbol.ofCode, dif_pos (by simp [byteHalf, Symbol.firstHalf]; omega)]
    rfl
  have hrange : (byteHalf + 0x80 ≤ (escaped b).code && (escaped b).code ≤ byteHalf + 0xFF &&
      (escaped b).isHalf) = true := by
    simp only [hcode, hhalf, Bool.and_true, Bool.and_eq_true, decide_eq_true_eq]
    omega
  rw [symbolBytes, if_pos hrange, hcode, Nat.add_sub_cancel_left]
  exact congrArg ([·]) (UInt8.ofNat_toNat)

/-- Escaped bytes stand for themselves in a name. -/
theorem flatMap_symbolBytes_escaped {bytes : List UInt8} (h : ∀ b ∈ bytes, 0x80 ≤ b.toNat) :
    (bytes.map escaped).flatMap symbolBytes = bytes := by
  induction bytes with
  | nil => rfl
  | cons b rest ih =>
    obtain ⟨hb, hrest⟩ := List.forall_mem_cons.mp h
    rw [List.map_cons, List.flatMap_cons, symbolBytes_escaped hb, ih hrest]
    rfl

/-- The text that stands for a name stands for this name. -/
theorem ofText_text (name : FileName) : ofText name.text = name := by
  fun_induction text name with
  | case1 => rfl
  | case2 b rest c following hstart ih =>
    rw [ofText, List.flatMap_cons, symbolBytes_char, Text.utf8_of_start hstart]
    change b :: rest.take following ++ ofText _ = _
    rw [ih, List.cons_append, List.take_append_drop]
  | case3 b rest cause following hstart ih =>
    have hfaulty := flatMap_symbolBytes_escaped (Text.le_of_mem_faulty hstart)
    rw [List.map_cons] at hfaulty
    rw [ofText, List.flatMap_append, hfaulty]
    change b :: rest.take following ++ ofText _ = _
    rw [ih, List.cons_append, List.take_append_drop]

/-- Different names have different texts. -/
theorem text_injective : Function.Injective text := fun first second h => by
  rw [← ofText_text first, h, ofText_text]

end FileName
end TestPlan
