import AgentDev.Python.Numerals

/-!
# UTF-8

`s.encode("utf-8")`. Surrogates cannot be encoded, and what can be encoded is determined by its bytes
(`encodeUtf8_inj`).
-/

namespace Python

/-- The character is no surrogate. -/
def IsScalar (c : CodePoint) : Prop := c.val < 0xD800 ∨ 0xDFFF < c.val

instance (c : CodePoint) : Decidable (IsScalar c) := inferInstanceAs (Decidable (_ ∨ _))

/-- `s.encode("utf-8")`; `none` is a `UnicodeEncodeError`. -/
def encodeUtf8 (s : Str) : Option (List UInt8) :=
  if s.all fun c => IsScalar c then
    some ((s.map fun c => Char.ofNat c.val).flatMap String.utf8EncodeChar)
  else none

theorem encodeUtf8_of_scalar {s : Str} (h : ∀ c ∈ s, IsScalar c) :
    encodeUtf8 s = some ((s.map fun c => Char.ofNat c.val).flatMap String.utf8EncodeChar) :=
  if_pos (List.all_eq_true.mpr fun c hc => decide_eq_true (h c hc))

theorem isValidChar_of_scalar {c : CodePoint} (h : IsScalar c) : c.val.isValidChar := by
  rcases h with h | h
  · exact Or.inl h
  · exact Or.inr ⟨h, c.isLt⟩

theorem toNat_ofNat {c : CodePoint} (h : IsScalar c) : (Char.ofNat c.val).toNat = c.val := by
  have hchar : Char.ofNat c.val = Char.ofNatAux c.val (isValidChar_of_scalar h) := dif_pos _
  rw [hchar]
  exact UInt32.toNat_ofNatLT

theorem ord_ofNat {c : CodePoint} (h : IsScalar c) : ord (Char.ofNat c.val) = c := by
  rw [ord, toNat_ofNat h, chr_of_val]

theorem isScalar_ord (c : Char) : IsScalar (ord c) := by
  have hlt : c.toNat < 0x110000 := by
    rcases c.valid with h | ⟨-, h⟩
    · exact Nat.lt_trans h (by decide)
    · exact h
  have hval : (ord c).val = c.toNat := chr_val hlt
  rw [IsScalar, hval]
  rcases c.valid with h | ⟨h, -⟩
  · exact Or.inl h
  · exact Or.inr h

theorem isScalar_str (s : String) : ∀ c ∈ str s, IsScalar c := by
  intro c hc
  obtain ⟨char, -, rfl⟩ := List.mem_map.mp hc
  exact isScalar_ord char

theorem utf8EncodeChar_inj {chars chars' : List Char}
    (h : chars.flatMap String.utf8EncodeChar = chars'.flatMap String.utf8EncodeChar) :
    chars = chars' := by
  have hbytes : chars.utf8Encode = chars'.utf8Encode := congrArg List.toByteArray h
  have hstrings : String.ofList chars = String.ofList chars' := by
    rw [← String.toByteArray_inj, String.toByteArray_ofList, String.toByteArray_ofList, hbytes]
  exact String.ofList_injective hstrings

theorem map_ord_ofNat {s : Str} (h : ∀ c ∈ s, IsScalar c) :
    (s.map fun c => Char.ofNat c.val).map ord = s := by
  rw [List.map_map]
  exact (List.map_congr_left fun c hc => ord_ofNat (h c hc)).trans (List.map_id s)

theorem encodeUtf8_some {s : Str} {bytes : List UInt8} (h : encodeUtf8 s = some bytes) :
    (∀ c ∈ s, IsScalar c) ∧
      (s.map fun c => Char.ofNat c.val).flatMap String.utf8EncodeChar = bytes := by
  unfold encodeUtf8 at h
  split at h
  · rename_i hall
    cases h
    exact ⟨fun c hc => of_decide_eq_true (List.all_eq_true.mp hall c hc), rfl⟩
  · cases h

theorem encodeUtf8_inj {s s' : Str} {bytes : List UInt8} (h : encodeUtf8 s = some bytes)
    (h' : encodeUtf8 s' = some bytes) : s = s' := by
  obtain ⟨hscalar, hbytes⟩ := encodeUtf8_some h
  obtain ⟨hscalar', hbytes'⟩ := encodeUtf8_some h'
  have hchars := utf8EncodeChar_inj (hbytes.trans hbytes'.symm)
  rw [← map_ord_ofNat hscalar, hchars, map_ord_ofNat hscalar']

end Python
