import AgentDev.Python.Numerals

/-!
# The `base64` module

`b64encode`, and `b64decode` as it is by default: characters outside of the alphabet are ignored, and so
is padding that comes too early; nothing is read after the padding that completes a group. What has
been encoded is decoded again (`b64decode_b64encode`).
-/

namespace Python.Base64

open Python

/-! ## The alphabet -/

def sextetChar (d : Nat) : CodePoint :=
  if d < 26 then chr (65 + d)
  else if d < 52 then chr (71 + d)
  else if d < 62 then chr (d - 4)
  else if d = 62 then ord '+'
  else ord '/'

/-- `table_a2b_base64` -/
def sextet? (c : CodePoint) : Option Nat :=
  if 65 ≤ c.val && c.val ≤ 90 then some (c.val - 65)
  else if 97 ≤ c.val && c.val ≤ 122 then some (c.val - 71)
  else if 48 ≤ c.val && c.val ≤ 57 then some (c.val + 4)
  else if c = ord '+' then some 62
  else if c = ord '/' then some 63
  else none

def pad : CodePoint := ord '='

theorem sextet?_sextetChar : ∀ d < 64, sextet? (sextetChar d) = some d := by decide

theorem sextetChar_ne_pad : ∀ d < 64, sextetChar d ≠ pad := by decide

/-! ## Encoding -/

/-- `b64encode(data).decode()` -/
def b64encode : List UInt8 → Str
  | [] => []
  | [a] => [sextetChar (a.toNat / 4), sextetChar (a.toNat % 4 * 16), pad, pad]
  | [a, b] =>
    [sextetChar (a.toNat / 4), sextetChar (a.toNat % 4 * 16 + b.toNat / 16),
      sextetChar (b.toNat % 16 * 4), pad]
  | a :: b :: c :: rest =>
    sextetChar (a.toNat / 4) :: sextetChar (a.toNat % 4 * 16 + b.toNat / 16) ::
      sextetChar (b.toNat % 16 * 4 + c.toNat / 64) :: sextetChar (c.toNat % 64) :: b64encode rest

/-! ## Decoding -/

/-- How many sextets of a group have been read, and the bits that they leave over. -/
inductive Quad
  | zero
  | one (left : Nat)
  | two (left : Nat)
  | three (left : Nat)

/-- The next sextet of a group: the bytes that it completes, and what comes then. -/
def Quad.next (quad : Quad) (d : Nat) : List UInt8 × Quad :=
  match quad with
  | .zero => ([], .one d)
  | .one left => ([UInt8.ofNat (left * 4 + d / 16)], .two (d % 16))
  | .two left => ([UInt8.ofNat (left * 16 + d / 4)], .three (d % 4))
  | .three left => ([UInt8.ofNat (left * 64 + d)], .zero)

/-- `a2b_base64`, in the middle of a group and after some padding. -/
def decode : Quad → (padded : Bool) → Str → Option (List UInt8)
  | .zero, _, [] => some []
  | _, _, [] => none
  | quad, padded, c :: rest =>
    if c = pad then
      match quad with
      | .zero | .one _ => decode quad padded rest
      | .two _ => if padded then some [] else decode quad true rest
      | .three _ => some []
    else
      match sextet? c with
      | none => decode quad padded rest
      | some d => (decode (quad.next d).2 false rest).map ((quad.next d).1 ++ ·)

/-- `b64decode(text)`; `none` is a `ValueError`. -/
def b64decode (text : Str) : Option (List UInt8) :=
  if text.all fun c => c.val < 128 then decode .zero false text else none

/-! ## Round trip -/

theorem decode_sextet {d : Nat} (hd : d < 64) (quad : Quad) (padded : Bool) (rest : Str) :
    decode quad padded (sextetChar d :: rest) =
      (decode (quad.next d).2 false rest).map ((quad.next d).1 ++ ·) := by
  have hpad : sextetChar d ≠ pad := sextetChar_ne_pad d hd
  have hsextet : sextet? (sextetChar d) = some d := sextet?_sextetChar d hd
  cases quad <;> simp [decode, hpad, hsextet]

/-- The characters of an encoding. -/
theorem mem_b64encode (data : List UInt8) :
    ∀ c ∈ b64encode data, c = pad ∨ ∃ d < 64, c = sextetChar d := by
  fun_induction b64encode data with
  | case1 => exact fun c hc => nomatch hc
  | case2 a =>
    have ha : a.toNat < 256 := a.toNat_lt
    intro c hc
    simp only [List.mem_cons, List.not_mem_nil, or_false] at hc
    rcases hc with rfl | rfl | rfl | rfl
    · exact Or.inr ⟨_, by omega, rfl⟩
    · exact Or.inr ⟨_, by omega, rfl⟩
    · exact Or.inl rfl
    · exact Or.inl rfl
  | case3 a b =>
    have ha : a.toNat < 256 := a.toNat_lt
    have hb : b.toNat < 256 := b.toNat_lt
    intro c hc
    simp only [List.mem_cons, List.not_mem_nil, or_false] at hc
    rcases hc with rfl | rfl | rfl | rfl
    · exact Or.inr ⟨_, by omega, rfl⟩
    · exact Or.inr ⟨_, by omega, rfl⟩
    · exact Or.inr ⟨_, by omega, rfl⟩
    · exact Or.inl rfl
  | case4 a b c rest ih =>
    have ha : a.toNat < 256 := a.toNat_lt
    have hb : b.toNat < 256 := b.toNat_lt
    have hc : c.toNat < 256 := c.toNat_lt
    intro char hchar
    simp only [List.mem_cons] at hchar
    rcases hchar with rfl | rfl | rfl | rfl | hrest
    · exact Or.inr ⟨_, by omega, rfl⟩
    · exact Or.inr ⟨_, by omega, rfl⟩
    · exact Or.inr ⟨_, by omega, rfl⟩
    · exact Or.inr ⟨_, by omega, rfl⟩
    · exact ih char hrest

theorem isAscii_sextetChar : ∀ d < 64, (sextetChar d).val < 128 := by decide

theorem isAscii_b64encode (data : List UInt8) : ∀ c ∈ b64encode data, c.val < 128 := by
  intro c hc
  rcases mem_b64encode data c hc with rfl | ⟨d, hd, rfl⟩
  · decide
  · exact isAscii_sextetChar d hd

theorem ofNat_eq {n : Nat} {a : UInt8} (h : n = a.toNat) : UInt8.ofNat n = a := by
  rw [h]
  exact UInt8.ofNat_toNat

theorem decode_b64encode (data : List UInt8) : decode .zero false (b64encode data) = some data := by
  fun_induction b64encode data with
  | case1 => rfl
  | case2 a =>
    have ha : a.toNat < 256 := a.toNat_lt
    have hbyte : UInt8.ofNat (a.toNat / 4 * 4 + a.toNat % 4 * 16 / 16) = a := ofNat_eq (by omega)
    rw [decode_sextet (by omega), decode_sextet (by omega)]
    simp only [Quad.next, hbyte]
    rfl
  | case3 a b =>
    have ha : a.toNat < 256 := a.toNat_lt
    have hb : b.toNat < 256 := b.toNat_lt
    have hbyte : UInt8.ofNat (a.toNat / 4 * 4 + (a.toNat % 4 * 16 + b.toNat / 16) / 16) = a :=
      ofNat_eq (by omega)
    have hbyte' : UInt8.ofNat ((a.toNat % 4 * 16 + b.toNat / 16) % 16 * 16 +
        b.toNat % 16 * 4 / 4) = b := ofNat_eq (by omega)
    rw [decode_sextet (by omega), decode_sextet (by omega), decode_sextet (by omega)]
    simp only [Quad.next, hbyte, hbyte']
    rfl
  | case4 a b c rest ih =>
    have ha : a.toNat < 256 := a.toNat_lt
    have hb : b.toNat < 256 := b.toNat_lt
    have hc : c.toNat < 256 := c.toNat_lt
    have hbyte : UInt8.ofNat (a.toNat / 4 * 4 + (a.toNat % 4 * 16 + b.toNat / 16) / 16) = a :=
      ofNat_eq (by omega)
    have hbyte' : UInt8.ofNat ((a.toNat % 4 * 16 + b.toNat / 16) % 16 * 16 +
        (b.toNat % 16 * 4 + c.toNat / 64) / 4) = b := ofNat_eq (by omega)
    have hbyte'' : UInt8.ofNat ((b.toNat % 16 * 4 + c.toNat / 64) % 4 * 64 + c.toNat % 64) = c :=
      ofNat_eq (by omega)
    rw [decode_sextet (by omega), decode_sextet (by omega), decode_sextet (by omega),
      decode_sextet (by omega)]
    simp only [Quad.next, hbyte, hbyte', hbyte'', ih]
    rfl

theorem b64decode_b64encode (data : List UInt8) : b64decode (b64encode data) = some data := by
  have hascii : (b64encode data).all (fun c => c.val < 128) = true := by
    simpa using isAscii_b64encode data
  rw [b64decode, if_pos hascii, decode_b64encode]

end Python.Base64
