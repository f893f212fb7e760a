import AgentDev.Python.JsonRoundTrip

/-!
# The characters of a written value

A text consists of ASCII characters and of characters of the strings in the value, and has no control
characters (`mem_dumps`).
-/

namespace Python.Json

mutual

/-- All strings in the value, names of items included. -/
def strings : Value → List Str
  | .str s => [s]
  | .seq values => stringsAll values
  | .dict items => stringsItems items
  | _ => []

def stringsAll : List Value → List Str
  | [] => []
  | value :: rest => strings value ++ stringsAll rest

def stringsItems : List (Key × Value) → List Str
  | [] => []
  | (key, value) :: rest => itemName (key, value) :: (strings value ++ stringsItems rest)

end

theorem mem_stringsAll {values : List Value} {s : Str} :
    s ∈ stringsAll values ↔ ∃ value ∈ values, s ∈ strings value := by
  induction values with
  | nil => simp [stringsAll]
  | cons value rest ih => simp [stringsAll, ih]

theorem mem_stringsItems {items : List (Key × Value)} {s : Str} :
    s ∈ stringsItems items ↔ ∃ item ∈ items, s = itemName item ∨ s ∈ strings item.2 := by
  induction items with
  | nil => simp [stringsItems]
  | cons item rest ih =>
    obtain ⟨key, value⟩ := item
    simp [stringsItems, ih, or_assoc]

mutual

/-- Sorting adds no strings. -/
theorem mem_strings_arrange {s : Str} : ∀ (value : Value),
    s ∈ strings (arrange value) → s ∈ strings value
  | .seq values, h => mem_stringsAll_arrange values h
  | .dict items, h => by
    obtain ⟨item, hitem, hs⟩ := mem_stringsItems.mp h
    exact mem_stringsItems_arrange items
      (mem_stringsItems.mpr ⟨item, (sortItems_perm _).mem_iff.mp hitem, hs⟩)
  | .none, h | .bool _, h | .int _, h | .float _, h | .str _, h | .other, h => h

theorem mem_stringsAll_arrange {s : Str} : ∀ (values : List Value),
    s ∈ stringsAll (arrangeAll values) → s ∈ stringsAll values
  | [], h => h
  | value :: values, h => by
    rcases List.mem_append.mp h with hvalue | hrest
    · exact List.mem_append_left _ (mem_strings_arrange value hvalue)
    · exact List.mem_append_right _ (mem_stringsAll_arrange values hrest)

theorem mem_stringsItems_arrange {s : Str} : ∀ (items : List (Key × Value)),
    s ∈ stringsItems (arrangeItems items) → s ∈ stringsItems items
  | [], h => h
  | (key, value) :: items, h => by
    rcases List.mem_cons.mp h with rfl | h
    · exact List.mem_cons_self
    · rcases List.mem_append.mp h with hvalue | hrest
      · exact List.mem_cons_of_mem _ (List.mem_append_left _ (mem_strings_arrange value hvalue))
      · exact List.mem_cons_of_mem _
          (List.mem_append_right _ (mem_stringsItems_arrange items hrest))

end

/-! ## Characters -/

/-- An ASCII character that is not a control character. -/
def IsPlain (c : CodePoint) : Prop := 0x20 ≤ c.val ∧ c.val < 128

instance (c : CodePoint) : Decidable (IsPlain c) := inferInstanceAs (Decidable (_ ∧ _))

theorem isPlain_of_all {s : Str} (h : s.all (fun c => IsPlain c) = true) :
    ∀ c ∈ s, IsPlain c := by
  intro c hc
  exact of_decide_eq_true (List.all_eq_true.mp h c hc)

theorem isPlain_chr {n : Nat} (h : 0x20 ≤ n) (h' : n < 128) : IsPlain (chr n) := by
  have hval : (chr n).val = n := chr_val (by omega)
  rw [IsPlain, hval]
  exact ⟨h, h'⟩

theorem isPlain_of_digit {c : CodePoint} (h : isDigit c = true) : IsPlain c := by
  rw [isDigit, digit?] at h
  split at h
  · rename_i hrange
    simp only [Bool.and_eq_true, decide_eq_true_eq] at hrange
    constructor <;> omega
  · cases h

theorem isPlain_hexDigit {n : Nat} : IsPlain (hexDigit (n % 16)) := by
  unfold hexDigit
  split
  · exact isPlain_chr (by omega) (by omega)
  · exact isPlain_chr (by omega) (by omega)

theorem isPlain_escapeCode (n : Nat) : ∀ c ∈ escapeCode n, IsPlain c := by
  intro c hc
  simp only [escapeCode, List.mem_cons, List.not_mem_nil, or_false] at hc
  rcases hc with rfl | rfl | rfl | rfl | rfl | rfl
  · decide
  · decide
  all_goals exact isPlain_hexDigit

theorem mem_escapeChar {ascii : Bool} {c d : CodePoint} (h : c ∈ escapeChar ascii d) :
    IsPlain c ∨ 0x20 ≤ c.val ∧ (ascii = true → c.val ≤ 0x7E) ∧ c = d := by
  unfold escapeChar at h
  split at h
  · rename_i letter hletter
    left
    have hall : ∀ c ∈ shortEscapes.map Prod.snd, IsPlain c := isPlain_of_all (by decide)
    obtain ⟨before, after, hsplit, -⟩ := List.lookup_eq_some_iff.mp hletter
    have hmem : (d, letter) ∈ shortEscapes := by simp [hsplit]
    rcases List.mem_cons.mp h with rfl | h
    · decide
    · rw [List.mem_singleton.mp h]
      exact hall letter (List.mem_map.mpr ⟨_, hmem, rfl⟩)
  · split at h
    · left
      split at h
      · exact isPlain_escapeCode _ c h
      · rcases List.mem_append.mp h with h | h <;> exact isPlain_escapeCode _ c h
    · rename_i hrange
      rw [Bool.or_eq_true, not_or, decide_eq_true_eq] at hrange
      rw [List.mem_singleton.mp h]
      refine Or.inr ⟨Nat.not_lt.mp hrange.1, ?_, rfl⟩
      rintro rfl
      simpa using hrange.2

theorem mem_writeStr {ascii : Bool} {s : Str} {c : CodePoint} (h : c ∈ writeStr ascii s) :
    IsPlain c ∨ 0x20 ≤ c.val ∧ c ∈ s := by
  rcases List.mem_cons.mp h with rfl | h
  · exact Or.inl (by decide)
  · rcases List.mem_append.mp h with h | h
    · obtain ⟨d, hd, hc⟩ := List.mem_flatMap.mp h
      rcases mem_escapeChar hc with hplain | ⟨hrange, -, rfl⟩
      · exact Or.inl hplain
      · exact Or.inr ⟨hrange, hd⟩
    · rw [List.mem_singleton.mp h]
      exact Or.inl (by decide)

theorem isPlain_intRepr {n : Int} {text : Str} (h : intRepr n = .ok text) :
    ∀ c ∈ text, IsPlain c := by
  have hdigits : ∀ c ∈ natRepr n.natAbs, IsPlain c :=
    fun c hc => isPlain_of_digit (natRepr_digits _ c hc)
  simp only [intRepr] at h
  split at h
  · cases h
  · cases h
    split
    · exact List.forall_mem_cons.mpr ⟨by decide, hdigits⟩
    · exact hdigits

theorem isPlain_floatLiteral {text : Str} (h : IsFloatLiteral text) : ∀ c ∈ text, IsPlain c := by
  obtain ⟨sign, int, frac, exp, rfl, hsign, hint, hfrac, hexp, -⟩ := h.parts
  have hdigits : ∀ {rest : Str}, (∀ d ∈ rest, isDigit d = true) → ∀ d ∈ rest, IsPlain d :=
    fun hrest d hd => isPlain_of_digit (hrest d hd)
  have hsigns : ∀ c ∈ sign, IsPlain c := by
    rcases hsign with rfl | rfl <;> exact isPlain_of_all (by decide)
  have hints : ∀ c ∈ int, IsPlain c := by
    rcases hint with rfl | ⟨c, rest, rfl, -, hc, hrest⟩
    · exact isPlain_of_all (by decide)
    · exact List.forall_mem_cons.mpr ⟨isPlain_of_digit hc, hdigits hrest⟩
  have hfracs : ∀ c ∈ frac, IsPlain c := by
    rcases hfrac with rfl | ⟨c, rest, rfl, hc, hrest⟩
    · exact isPlain_of_all (by decide)
    · exact List.forall_mem_cons.mpr ⟨by decide,
        List.forall_mem_cons.mpr ⟨isPlain_of_digit hc, hdigits hrest⟩⟩
  have hexps : ∀ c ∈ exp, IsPlain c := by
    rcases hexp with rfl | ⟨sign', c, rest, rfl, hsign', hc, hrest⟩
    · exact isPlain_of_all (by decide)
    · have hsigns' : ∀ c ∈ sign', IsPlain c := by
        rcases hsign' with rfl | rfl | rfl <;> exact isPlain_of_all (by decide)
      refine List.forall_mem_cons.mpr ⟨by decide, List.forall_mem_append.mpr ⟨hsigns', ?_⟩⟩
      exact List.forall_mem_cons.mpr ⟨isPlain_of_digit hc, hdigits hrest⟩
  exact List.forall_mem_append.mpr ⟨hsigns, List.forall_mem_append.mpr ⟨hints,
    List.forall_mem_append.mpr ⟨hfracs, hexps⟩⟩⟩

theorem mem_join {sep : Str} {c : CodePoint} : ∀ {parts : List Str}, c ∈ join sep parts →
    c ∈ sep ∨ ∃ part ∈ parts, c ∈ part
  | [], h => nomatch h
  | [part], h => Or.inr ⟨part, List.mem_cons_self, h⟩
  | part :: part' :: parts, h => by
    rw [join_cons_cons, List.mem_append, List.mem_append] at h
    rcases h with (h | h) | h
    · exact Or.inr ⟨part, List.mem_cons_self, h⟩
    · exact Or.inl h
    · rcases mem_join h with hsep | ⟨other, hother, hc⟩
      · exact Or.inl hsep
      · exact Or.inr ⟨other, List.mem_cons_of_mem _ hother, hc⟩

section

variable {floats : FloatText} {format : Format} {c : CodePoint}

/-- The character is plain or occurs in one of the strings; it is no control character. -/
def Occurs (c : CodePoint) (strings : List Str) : Prop :=
  IsPlain c ∨ 0x20 ≤ c.val ∧ ∃ s ∈ strings, c ∈ s

theorem Occurs.not_control {ss : List Str} (h : Occurs c ss) : 0x20 ≤ c.val := by
  rcases h with hplain | ⟨hrange, -⟩
  · exact hplain.1
  · exact hrange

theorem Occurs.mono {ss ss' : List Str} (h : Occurs c ss) (hsub : ∀ s ∈ ss, s ∈ ss') :
    Occurs c ss' := by
  rcases h with hplain | ⟨hrange, s, hs, hc⟩
  · exact Or.inl hplain
  · exact Or.inr ⟨hrange, s, hsub s hs, hc⟩

theorem forall_joined {P : CodePoint → Prop} (hplain : ∀ c, IsPlain c → P c) {parts : List Str}
    {first : Char} {last : Str} (hfirst : IsPlain (ord first)) (hlast : ∀ c ∈ last, IsPlain c)
    (hparts : ∀ part ∈ parts, ∀ c ∈ part, P c) :
    ∀ c ∈ ord first :: (join (str ",") parts ++ last), P c := by
  intro c h
  rcases List.mem_cons.mp h with rfl | h
  · exact hplain _ hfirst
  · rcases List.mem_append.mp h with h | h
    · rcases mem_join h with hcomma | ⟨part, hpart, hc⟩
      · have hall : ∀ c ∈ str ",", IsPlain c := isPlain_of_all (by decide)
        exact hplain c (hall c hcomma)
      · exact hparts part hpart c hc
    · exact hplain c (hlast c h)

mutual

/-- What holds of the plain characters and of the texts of the strings holds of the text. -/
theorem forall_write {P : CodePoint → Prop} (hplain : ∀ c, IsPlain c → P c) :
    ∀ (value : Value) {text : Str}, write floats format value = .ok text →
    Serializable format value →
    (∀ s ∈ strings value, ∀ c ∈ writeStr format.ensureAscii s, P c) → ∀ c ∈ text, P c
  | .seq values, text, h, hserial, hstrings => by
    obtain ⟨texts, htexts, htext⟩ := bind_ok h
    cases htext
    exact forall_joined hplain (by decide) (isPlain_of_all (by decide))
      (forall_writeAll hplain values htexts hserial hstrings)
  | .dict items, text, h, hserial, hstrings => by
    obtain ⟨texts, htexts, htext⟩ := bind_ok h
    cases htext
    exact forall_joined hplain (by decide) (isPlain_of_all (by decide))
      (forall_writeItems hplain items htexts hserial.2 hstrings)
  | .str s, text, h, _, hstrings => by
    cases h
    exact hstrings s (List.mem_singleton.mpr rfl)
  | .int n, text, h, _, _ => fun c hc => hplain c (isPlain_intRepr h c hc)
  | .float (.finite q), text, h, hserial, _ => by
    cases h
    exact fun c hc => hplain c (isPlain_floatLiteral (floats.literal q hserial) c hc)
  | .float (.inf negative), text, h, hserial, _ => by
    have hall : ∀ c ∈ (if negative then str "-Infinity" else str "Infinity"), IsPlain c := by
      cases negative <;> exact isPlain_of_all (by decide)
    cases (if_pos hserial).symm.trans h
    exact fun c hc => hplain c (hall c hc)
  | .float .nan, text, h, hserial, _ => by
    have hall : ∀ c ∈ str "NaN", IsPlain c := isPlain_of_all (by decide)
    cases (if_pos hserial).symm.trans h
    exact fun c hc => hplain c (hall c hc)
  | .none, text, h, _, _ => by
    have hall : ∀ c ∈ str "null", IsPlain c := isPlain_of_all (by decide)
    cases h
    exact fun c hc => hplain c (hall c hc)
  | .bool true, text, h, _, _ => by
    have hall : ∀ c ∈ str "true", IsPlain c := isPlain_of_all (by decide)
    cases h
    exact fun c hc => hplain c (hall c hc)
  | .bool false, text, h, _, _ => by
    have hall : ∀ c ∈ str "false", IsPlain c := isPlain_of_all (by decide)
    cases h
    exact fun c hc => hplain c (hall c hc)

theorem forall_writeAll {P : CodePoint → Prop} (hplain : ∀ c, IsPlain c → P c) :
    ∀ (values : List Value) {texts : List Str},
    writeAll floats format values = .ok texts → AllSerializable format values →
    (∀ s ∈ stringsAll values, ∀ c ∈ writeStr format.ensureAscii s, P c) →
    ∀ text ∈ texts, ∀ c ∈ text, P c
  | [], texts, h, _, _ => by
    cases h
    exact fun _ htext => nomatch htext
  | value :: values, texts, h, hserial, hstrings => by
    obtain ⟨text, texts', htext, htexts', rfl⟩ := writeAll_cons h
    rw [List.forall_mem_cons]
    constructor
    · exact forall_write hplain value htext hserial.1 fun s hs => hstrings s (List.mem_append_left _ hs)
    · exact forall_writeAll hplain values htexts' hserial.2
        fun s hs => hstrings s (List.mem_append_right _ hs)

theorem forall_writeItems {P : CodePoint → Prop} (hplain : ∀ c, IsPlain c → P c) :
    ∀ (items : List (Key × Value)) {texts : List Str},
    writeItems floats format items = .ok texts → ItemsSerializable format items →
    (∀ s ∈ stringsItems items, ∀ c ∈ writeStr format.ensureAscii s, P c) →
    ∀ text ∈ texts, ∀ c ∈ text, P c
  | [], texts, h, _, _ => by
    cases h
    exact fun _ htext => nomatch htext
  | (.other, _) :: _, _, _, hserial, _ => hserial.elim
  | (.str name, value) :: items, texts, h, hserial, hstrings => by
    obtain ⟨text, texts', htext, htexts', rfl⟩ := writeItems_cons h
    rw [List.forall_mem_cons]
    constructor
    · intro c hc
      rcases List.mem_append.mp hc with hname | hc
      · exact hstrings name List.mem_cons_self c hname
      · rcases List.mem_cons.mp hc with rfl | hc
        · exact hplain _ (by decide)
        · exact forall_write hplain value htext hserial.2.1
            (fun s hs => hstrings s (List.mem_cons_of_mem _ (List.mem_append_left _ hs))) c hc
    · exact forall_writeItems hplain items htexts' hserial.2.2
        fun s hs => hstrings s (List.mem_cons_of_mem _ (List.mem_append_right _ hs))

end

theorem mem_write (value : Value) {text : Str} (h : write floats format value = .ok text)
    (hserial : Serializable format value) : ∀ c ∈ text, Occurs c (strings value) := by
  apply forall_write (P := fun c => Occurs c (strings value)) (fun c hc => Or.inl hc) value h hserial
  intro s hs c hc
  rcases mem_writeStr hc with hplain | ⟨hrange, hmem⟩
  · exact Or.inl hplain
  · exact Or.inr ⟨hrange, s, hs, hmem⟩

/-! ## ASCII -/

theorem isPlain_escapeChar {c d : CodePoint} (h : c ∈ escapeChar true d) : IsPlain c := by
  rcases mem_escapeChar h with hplain | ⟨hrange, hascii, -⟩
  · exact hplain
  · exact ⟨hrange, Nat.lt_of_le_of_lt (hascii rfl) (by decide)⟩

theorem isPlain_writeStr {s : Str} : ∀ c ∈ writeStr true s, IsPlain c := by
  intro c h
  rcases List.mem_cons.mp h with rfl | h
  · decide
  · rcases List.mem_append.mp h with h | h
    · obtain ⟨d, -, hc⟩ := List.mem_flatMap.mp h
      exact isPlain_escapeChar hc
    · rw [List.mem_singleton.mp h]
      decide

/-- With `ensure_ascii` a text has only plain characters. -/
theorem isPlain_write (value : Value) {text : Str} (h : write floats format value = .ok text)
    (hserial : Serializable format value) (hascii : format.ensureAscii = true) :
    ∀ c ∈ text, IsPlain c := by
  apply forall_write (fun _ hc => hc) value h hserial
  intro s _
  rw [hascii]
  exact isPlain_writeStr

theorem mem_dumps {value : Value} {text : Str} (h : dumps floats format value = .ok text)
    (hserial : Serializable format value) : ∀ c ∈ text, Occurs c (strings value) := by
  unfold dumps at h
  split at h
  · exact fun c hc => (mem_write (arrange value) h (serializable_arrange value hserial) c hc).mono
      fun s => mem_strings_arrange value
  · exact mem_write value h hserial

end

end Python.Json
