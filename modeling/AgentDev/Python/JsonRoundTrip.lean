import Mathlib.Data.List.TakeWhile
import AgentDev.Python.JsonNumbers
import AgentDev.Python.JsonStrings

/-!
# What `dumps` writes, `loads` reads

A serializable value has a text, and is read back from it with the items of its mappings in the order
in which they have been written (`dumps_loads`). What is excluded is what has no text (values that
are not of `json`'s types, numerals over the limit) and what is read as another value: with
`ensure_ascii`, strings with surrogate pairs.
-/

namespace Python.Json

/-! ## Values that are read back -/

mutual

/-- The value can be written, and is read as itself when it has been written. -/
def Serializable (format : Format) : Value → Prop
  | .none | .bool _ => True
  | .int n => (natRepr n.natAbs).length ≤ maxStrDigits
  | .float (.finite q) => IsDouble q
  | .float _ => format.allowNan = true
  | .str s => format.ensureAscii = true → PairFree s
  | .seq values => AllSerializable format values
  | .dict items => (Dict.names items).Nodup ∧ ItemsSerializable format items
  | .other => False

def AllSerializable (format : Format) : List Value → Prop
  | [] => True
  | value :: rest => Serializable format value ∧ AllSerializable format rest

def ItemsSerializable (format : Format) : List (Key × Value) → Prop
  | [] => True
  | (.other, _) :: _ => False
  | (.str name, value) :: rest =>
    (format.ensureAscii = true → PairFree name) ∧ Serializable format value ∧
      ItemsSerializable format rest

end

mutual

/-- How deep the calls for the value are nested. -/
def cost : Value → Nat
  | .seq values => 1 + costAll values
  | .dict items => 1 + costItems items
  | _ => 1

def costAll : List Value → Nat
  | [] => 0
  | value :: rest => 1 + cost value + costAll rest

def costItems : List (Key × Value) → Nat
  | [] => 0
  | (_, value) :: rest => 1 + cost value + costItems rest

end

theorem cost_pos (value : Value) : 0 < cost value := by
  cases value <;> simp only [cost] <;> omega

/-- The text of a value begins with no white space and with no closing bracket. -/
def Begins (text : Str) : Prop :=
  ∃ c tail, text = c :: tail ∧ isWhitespace c = false ∧ c ≠ ord ']' ∧ c ≠ ord '\x7d'

theorem Begins.skip_append {text rest : Str} (h : Begins text) :
    skip (text ++ rest) = text ++ rest := by
  obtain ⟨c, tail, rfl, hc, -⟩ := h
  exact List.dropWhile_cons_of_neg (by simp [hc])

theorem Begins.head_ne {text rest : Str} (h : Begins text) :
    (text ++ rest).head? ≠ some (ord ']') ∧ (text ++ rest).head? ≠ some (ord '\x7d') := by
  obtain ⟨c, tail, rfl, -, hbracket, hbrace⟩ := h
  exact ⟨fun heq => hbracket (Option.some.inj heq), fun heq => hbrace (Option.some.inj heq)⟩

theorem Numeral.begins {text : Str} (h : Numeral text) : Begins text := by
  obtain ⟨c, tail, rfl, hc⟩ := h
  refine ⟨c, tail, rfl, ?_⟩
  rcases hc with hc | ⟨rfl, -⟩
  · refine ⟨?_, ?_, ?_⟩
    · rw [isDigit, digit?] at hc
      split at hc
      · rename_i hrange
        simp only [Bool.and_eq_true, decide_eq_true_eq] at hrange
        have hwhite : ¬(c.val = 32 ∨ c.val = 9 ∨ c.val = 10 ∨ c.val = 13) := by omega
        simp only [isWhitespace, Fin.ext_iff, Bool.or_eq_false_iff, decide_eq_false_iff_not]
        simp only [not_or] at hwhite
        exact ⟨⟨⟨hwhite.1, hwhite.2.1⟩, hwhite.2.2.1⟩, hwhite.2.2.2⟩
      · cases hc
    · rintro rfl
      cases hc
    · rintro rfl
      cases hc
  · exact ⟨by decide, by decide, by decide⟩

/-! ## The round trip -/

section

variable {floats : FloatText} {format : Format}

theorem bind_ok {ε α β : Type} {x : Except ε α} {f : α → Except ε β} {b : β}
    (h : (x >>= f) = .ok b) : ∃ a, x = .ok a ∧ f a = .ok b := by
  cases x with
  | error e => cases h
  | ok a => exact ⟨a, rfl, h⟩

theorem begins_writeStr (s : Str) : Begins (writeStr format.ensureAscii s) :=
  ⟨ord '"', _, rfl, by decide, by decide, by decide⟩

theorem write_begins {value : Value} {text : Str} (h : write floats format value = .ok text)
    (hserial : Serializable format value) : Begins text := by
  cases value with
  | none =>
    cases h
    exact ⟨ord 'n', str "ull", rfl, by decide, by decide, by decide⟩
  | bool b =>
    cases b with
    | true =>
      cases h
      exact ⟨ord 't', str "rue", rfl, by decide, by decide, by decide⟩
    | false =>
      cases h
      exact ⟨ord 'f', str "alse", rfl, by decide, by decide, by decide⟩
  | int n => exact (intRepr_numeral h).begins
  | float x =>
    cases x with
    | finite q =>
      cases h
      exact (floats.literal q hserial).numeral.begins
    | inf negative =>
      by_cases hnan : format.allowNan = true
      · cases negative with
        | true =>
          cases (if_pos hnan).symm.trans h
          exact ⟨ord '-', str "Infinity", rfl, by decide, by decide, by decide⟩
        | false =>
          cases (if_pos hnan).symm.trans h
          exact ⟨ord 'I', str "nfinity", rfl, by decide, by decide, by decide⟩
      · cases (if_neg hnan).symm.trans h
    | nan =>
      by_cases hnan : format.allowNan = true
      · cases (if_pos hnan).symm.trans h
        exact ⟨ord 'N', str "aN", rfl, by decide, by decide, by decide⟩
      · cases (if_neg hnan).symm.trans h
  | str s =>
    cases h
    exact begins_writeStr s
  | seq values =>
    obtain ⟨texts, -, htext⟩ := bind_ok h
    cases htext
    exact ⟨ord '[', _, rfl, by decide, by decide, by decide⟩
  | dict items =>
    obtain ⟨texts, -, htext⟩ := bind_ok h
    cases htext
    exact ⟨ord '\x7b', _, rfl, by decide, by decide, by decide⟩
  | other => cases h

/-- A value that has no values in it. -/
theorem scan_atom {value : Value} {text rest : Str} {fuel : Nat}
    (h : write floats format value = .ok text) (hserial : Serializable format value)
    (hseq : ∀ values, value ≠ .seq values) (hdict : ∀ items, value ≠ .dict items)
    (hrest : Ends rest) : scan floats (fuel + 1) (text ++ rest) = .ok (value, rest) := by
  cases value with
  | none =>
    cases h
    rfl
  | bool b =>
    cases b with
    | true =>
      cases h
      rfl
    | false =>
      cases h
      rfl
  | int n => rw [scan_numeral (intRepr_numeral h), scanNumber_int h hrest]
  | float x =>
    cases x with
    | finite q =>
      cases h
      have hliteral := floats.literal q hserial
      rw [scan_numeral hliteral.numeral, scanNumber_float hliteral hrest,
        floats.parse_repr q hserial]
    | inf negative =>
      by_cases hnan : format.allowNan = true
      · cases negative with
        | true =>
          cases (if_pos hnan).symm.trans h
          rfl
        | false =>
          cases (if_pos hnan).symm.trans h
          rfl
      · cases (if_neg hnan).symm.trans h
    | nan =>
      by_cases hnan : format.allowNan = true
      · cases (if_pos hnan).symm.trans h
        rfl
      · cases (if_neg hnan).symm.trans h
  | str s =>
    cases h
    have happend : writeStr format.ensureAscii s ++ rest =
        ord '"' :: (s.flatMap (escapeChar format.ensureAscii) ++ ord '"' :: rest) := by
      simp [writeStr]
    rw [happend, scan, if_pos rfl, scanString_writeStr hserial]
    rfl
  | seq values => exact absurd rfl (hseq values)
  | dict items => exact absurd rfl (hdict items)
  | other => cases h

theorem set_new {items : Dict} {name : Str} {value : Value} (h : name ∉ items.names) :
    items.set (.str name) value = items ++ [(.str name, value)] := by
  induction items with
  | nil => rfl
  | cons item rest ih =>
    obtain ⟨key, old⟩ := item
    cases key with
    | other =>
      have hrest : name ∉ Dict.names rest := h
      rw [Dict.set, if_neg (by simp), ih hrest]
      rfl
    | str first =>
      have hnames : name ∉ first :: Dict.names rest := h
      rw [List.mem_cons, not_or] at hnames
      have hkey : Key.str first ≠ Key.str name := fun heq => hnames.1 (Key.str.inj heq).symm
      rw [Dict.set, if_neg hkey, ih hnames.2]
      rfl

/-! ### Lists and mappings -/

theorem Begins.append {text : Str} (h : Begins text) (rest : Str) : Begins (text ++ rest) := by
  obtain ⟨c, tail, rfl, hc⟩ := h
  exact ⟨c, tail ++ rest, rfl, hc⟩

theorem join_cons_cons (sep part part' : Str) (parts : List Str) :
    join sep (part :: part' :: parts) = part ++ sep ++ join sep (part' :: parts) := rfl

theorem begins_join {sep part : Str} (h : Begins part) (parts : List Str) :
    Begins (join sep (part :: parts)) := by
  cases parts with
  | nil => exact h
  | cons part' parts =>
    rw [join_cons_cons, List.append_assoc]
    exact h.append _

theorem writeAll_cons {value : Value} {values : List Value} {texts : List Str}
    (h : writeAll floats format (value :: values) = .ok texts) :
    ∃ text texts', write floats format value = .ok text ∧
      writeAll floats format values = .ok texts' ∧ texts = text :: texts' := by
  obtain ⟨text, htext, hrest⟩ := bind_ok h
  obtain ⟨texts', htexts', heq⟩ := bind_ok hrest
  cases heq
  exact ⟨text, texts', htext, htexts', rfl⟩

/-- The text of an item. -/
def itemText (format : Format) (name text : Str) : Str :=
  writeStr format.ensureAscii name ++ ord ':' :: text

theorem writeItems_cons {name : Str} {value : Value} {items : List (Key × Value)} {texts : List Str}
    (h : writeItems floats format ((.str name, value) :: items) = .ok texts) :
    ∃ text texts', write floats format value = .ok text ∧
      writeItems floats format items = .ok texts' ∧ texts = itemText format name text :: texts' := by
  obtain ⟨text, htext, hrest⟩ := bind_ok h
  obtain ⟨texts', htexts', heq⟩ := bind_ok hrest
  cases heq
  exact ⟨text, texts', htext, htexts', rfl⟩

theorem begins_itemText (name text : Str) : Begins (itemText format name text) :=
  (begins_writeStr name).append _

/-- A list whose first value has been read. -/
theorem scanValues_last {value : Value} {acc : List Value} {s rest : Str} {fuel : Nat}
    (h : scan floats fuel s = .ok (value, ord ']' :: rest)) :
    scanValues floats (fuel + 1) acc s = .ok (.seq (acc ++ [value]), rest) := by
  rw [scanValues, h]
  rfl

theorem scanValues_more {value : Value} {acc : List Value} {s rest : Str} {fuel : Nat}
    (h : scan floats fuel s = .ok (value, ord ',' :: rest)) :
    scanValues floats (fuel + 1) acc s = scanValues floats fuel (acc ++ [value]) (skip rest) := by
  rw [scanValues, h]
  rfl

/-- The name of an item is read up to its value. -/
theorem scanItems_item {acc : Dict} {name text rest : Str} {fuel : Nat}
    (hname : format.ensureAscii = true → PairFree name) (htext : Begins text) :
    scanItems floats (fuel + 1) acc (itemText format name text ++ rest) = (do
      let (value, s) ← scan floats fuel (text ++ rest)
      if (skip s).head? = some (ord '\x7d') then
        return (.dict (acc.set (.str name) value), (skip s).tail)
      else
        let s ← expect ',' (skip s)
        scanItems floats fuel (acc.set (.str name) value) (skip s)) := by
  have happend : itemText format name text ++ rest =
      ord '"' :: (name.flatMap (escapeChar format.ensureAscii) ++
        ord '"' :: (ord ':' :: (text ++ rest))) := by
    simp [itemText, writeStr]
  have hskip : skip (text ++ rest) = text ++ rest := htext.skip_append
  rw [happend, scanItems]
  show (scanString _ >>= _) = _
  rw [scanString_writeStr hname]
  show (scan floats fuel (skip (text ++ rest)) >>= _) = _
  rw [hskip]

theorem scanItems_last {acc : Dict} {name text rest : Str} {value : Value} {fuel : Nat}
    (hname : format.ensureAscii = true → PairFree name) (htext : Begins text)
    (h : scan floats fuel (text ++ ord '\x7d' :: rest) = .ok (value, ord '\x7d' :: rest)) :
    scanItems floats (fuel + 1) acc (itemText format name text ++ ord '\x7d' :: rest) =
      .ok (.dict (acc.set (.str name) value), rest) := by
  rw [scanItems_item hname htext, h]
  rfl

theorem scanItems_more {acc : Dict} {name text rest : Str} {value : Value} {fuel : Nat}
    (hname : format.ensureAscii = true → PairFree name) (htext : Begins text)
    (h : scan floats fuel (text ++ ord ',' :: rest) = .ok (value, ord ',' :: rest)) :
    scanItems floats (fuel + 1) acc (itemText format name text ++ ord ',' :: rest) =
      scanItems floats fuel (acc.set (.str name) value) (skip rest) := by
  rw [scanItems_item hname htext, h]
  rfl

theorem new_name {acc items : Dict} {name : Str} {value : Value}
    (h : (Dict.names (acc ++ (.str name, value) :: items)).Nodup) : name ∉ acc.names := by
  have happend : Dict.names (acc ++ (.str name, value) :: items) =
      acc.names ++ name :: Dict.names items := by
    simp [Dict.names]
  rw [happend, List.nodup_append] at h
  exact fun hmem => h.2.2 name hmem name List.mem_cons_self rfl

mutual

theorem scan_write : ∀ (value : Value) {text rest : Str} {fuel : Nat},
    write floats format value = .ok text → Serializable format value →
    cost value ≤ fuel → Ends rest → scan floats fuel (text ++ rest) = .ok (value, rest)
  | value, text, rest, 0, _, _, hcost, _ => absurd hcost (by have := cost_pos value; omega)
  | .seq [], text, rest, fuel + 1, h, _, _, _ => by
    cases h
    rfl
  | .seq (value :: values), text, rest, fuel + 1, h, hserial, hcost, _ => by
    obtain ⟨texts, htexts, htext⟩ := bind_ok h
    cases htext
    simp only [cost] at hcost
    have hvalues : scanValues floats fuel [] (join (str ",") texts ++ ord ']' :: rest) =
        .ok (.seq (value :: values), rest) :=
      scanValues_write (value :: values) (by simp) htexts hserial (by omega)
    obtain ⟨text, texts', hvalue, -, rfl⟩ := writeAll_cons htexts
    have hbegins : Begins (join (str ",") (text :: texts')) :=
      begins_join (write_begins hvalue hserial.1) texts'
    have happend : ord '[' :: (join (str ",") (text :: texts') ++ str "]") ++ rest =
        ord '[' :: (join (str ",") (text :: texts') ++ ord ']' :: rest) := by
      simp [show str "]" = [ord ']'] from rfl]
    rw [happend, scan, if_neg (by decide), if_neg (by decide), if_pos rfl, hbegins.skip_append,
      if_neg hbegins.head_ne.1, hvalues]
  | .dict [], text, rest, fuel + 1, h, _, _, _ => by
    cases h
    rfl
  | .dict ((key, value) :: items), text, rest, fuel + 1, h, hserial, hcost, _ => by
    obtain ⟨texts, htexts, htext⟩ := bind_ok h
    cases htext
    simp only [cost] at hcost
    have hitems : scanItems floats fuel [] (join (str ",") texts ++ ord '\x7d' :: rest) =
        .ok (.dict ((key, value) :: items), rest) :=
      scanItems_write ((key, value) :: items) (by simp) htexts hserial.2 hserial.1 (by omega)
    cases key with
    | other => exact hserial.2.elim
    | str name =>
      obtain ⟨text, texts', -, -, rfl⟩ := writeItems_cons htexts
      have hbegins : Begins (join (str ",") (itemText format name text :: texts')) :=
        begins_join (begins_itemText name text) texts'
      have happend : ord '\x7b' :: (join (str ",") (itemText format name text :: texts') ++ str "\x7d") ++
          rest = ord '\x7b' :: (join (str ",") (itemText format name text :: texts') ++
            ord '\x7d' :: rest) := by
        simp [show str "\x7d" = [ord '\x7d'] from rfl]
      rw [happend, scan, if_neg (by decide), if_pos rfl, hbegins.skip_append,
        if_neg hbegins.head_ne.2, hitems]
  | .none, text, rest, fuel + 1, h, hserial, _, hrest
  | .bool _, text, rest, fuel + 1, h, hserial, _, hrest
  | .int _, text, rest, fuel + 1, h, hserial, _, hrest
  | .float _, text, rest, fuel + 1, h, hserial, _, hrest
  | .str _, text, rest, fuel + 1, h, hserial, _, hrest
  | .other, text, rest, fuel + 1, h, hserial, _, hrest =>
    scan_atom h hserial (fun _ heq => nomatch heq) (fun _ heq => nomatch heq) hrest

theorem scanValues_write : ∀ (values : List Value) {acc : List Value} {texts : List Str}
    {rest : Str} {fuel : Nat}, values ≠ [] → writeAll floats format values = .ok texts →
    AllSerializable format values → costAll values ≤ fuel →
    scanValues floats fuel acc (join (str ",") texts ++ ord ']' :: rest) =
      .ok (.seq (acc ++ values), rest)
  | [], _, _, _, _, hne, _, _, _ => absurd rfl hne
  | value :: values, acc, texts, rest, 0, _, _, _, hcost =>
    absurd hcost (by simp only [costAll]; omega)
  | [value], acc, texts, rest, fuel + 1, _, h, hserial, hcost => by
    obtain ⟨text, texts', htext, htexts', rfl⟩ := writeAll_cons h
    cases htexts'
    simp only [costAll] at hcost
    exact scanValues_last (scan_write value htext hserial.1 (by omega) ends_bracket)
  | value :: value' :: values, acc, texts, rest, fuel + 1, _, h, hserial, hcost => by
    obtain ⟨text, texts', htext, htexts', rfl⟩ := writeAll_cons h
    have hrest : scanValues floats fuel (acc ++ [value]) (join (str ",") texts' ++ ord ']' :: rest) =
        .ok (.seq (acc ++ [value] ++ value' :: values), rest) :=
      scanValues_write (value' :: values) (by simp) htexts' hserial.2
        (by simp only [costAll] at hcost ⊢; omega)
    obtain ⟨text', texts'', htext', -, rfl⟩ := writeAll_cons htexts'
    have hbegins : Begins (join (str ",") (text' :: texts'')) :=
      begins_join (write_begins htext' hserial.2.1) texts''
    have happend : join (str ",") (text :: text' :: texts'') ++ ord ']' :: rest =
        text ++ ord ',' :: (join (str ",") (text' :: texts'') ++ ord ']' :: rest) := by
      simp [join_cons_cons, show str "," = [ord ','] from rfl]
    simp only [costAll] at hcost
    rw [happend, scanValues_more (scan_write value htext hserial.1 (by omega) ends_comma),
      hbegins.skip_append, hrest]
    simp

theorem scanItems_write : ∀ (items : List (Key × Value)) {acc : Dict} {texts : List Str}
    {rest : Str} {fuel : Nat}, items ≠ [] → writeItems floats format items = .ok texts →
    ItemsSerializable format items → (Dict.names (acc ++ items)).Nodup →
    costItems items ≤ fuel →
    scanItems floats fuel acc (join (str ",") texts ++ ord '\x7d' :: rest) =
      .ok (.dict (acc ++ items), rest)
  | [], _, _, _, _, hne, _, _, _, _ => absurd rfl hne
  | (.other, _) :: _, _, _, _, _, _, _, hserial, _, _ => hserial.elim
  | (.str name, value) :: items, acc, texts, rest, 0, _, _, _, _, hcost =>
    absurd hcost (by simp only [costItems]; omega)
  | [(.str name, value)], acc, texts, rest, fuel + 1, _, h, hserial, hnames, hcost => by
    obtain ⟨text, texts', htext, htexts', rfl⟩ := writeItems_cons h
    cases htexts'
    obtain ⟨hname, hvalue, -⟩ := hserial
    simp only [costItems] at hcost
    have hscan : scan floats fuel (text ++ ord '\x7d' :: rest) = .ok (value, ord '\x7d' :: rest) :=
      scan_write value htext hvalue (by omega) ends_brace
    rw [← set_new (new_name hnames)]
    exact scanItems_last hname (write_begins htext hvalue) hscan
  | (.str name, value) :: (.other, _) :: items, _, _, _, _ + 1, _, _, hserial, _, _ =>
    hserial.2.2.elim
  | (.str name, value) :: (.str name', value') :: items, acc, texts, rest, fuel + 1, _, h,
    hserial, hnames, hcost => by
    obtain ⟨text, texts', htext, htexts', rfl⟩ := writeItems_cons h
    obtain ⟨hname, hvalue, hothers⟩ := hserial
    have hnew : acc.set (.str name) value = acc ++ [(.str name, value)] := set_new (new_name hnames)
    have hrest : scanItems floats fuel (acc.set (.str name) value)
        (join (str ",") texts' ++ ord '\x7d' :: rest) =
        .ok (.dict (acc.set (.str name) value ++ (.str name', value') :: items), rest) := by
      refine scanItems_write ((.str name', value') :: items) (by simp) htexts' hothers ?_
        (by simp only [costItems] at hcost ⊢; omega)
      rw [hnew, List.append_assoc]
      exact hnames
    obtain ⟨text', texts'', -, -, rfl⟩ := writeItems_cons htexts'
    have hbegins : Begins (join (str ",") (itemText format name' text' :: texts'')) :=
      begins_join (begins_itemText name' text') texts''
    have happend : join (str ",") (itemText format name text :: itemText format name' text' :: texts'') ++
        ord '\x7d' :: rest = itemText format name text ++ ord ',' ::
          (join (str ",") (itemText format name' text' :: texts'') ++ ord '\x7d' :: rest) := by
      simp [join_cons_cons, show str "," = [ord ','] from rfl]
    simp only [costItems] at hcost
    have hscan : ∀ tail, scan floats fuel (text ++ ord ',' :: tail) = .ok (value, ord ',' :: tail) :=
      fun tail => scan_write value htext hvalue (by omega) ends_comma
    rw [happend, scanItems_more hname (write_begins htext hvalue) (hscan _), hbegins.skip_append,
      hrest, hnew]
    simp

end

/-! ### Enough calls -/

theorem join_length_le (sep part : Str) (parts : List Str) :
    part.length + (join sep parts).length ≤ (join sep (part :: parts)).length ∧
      (parts ≠ [] → part.length + sep.length + (join sep parts).length =
        (join sep (part :: parts)).length) := by
  cases parts with
  | nil => exact ⟨Nat.le_refl _, fun h => absurd rfl h⟩
  | cons part' parts =>
    rw [join_cons_cons]
    simp only [List.length_append]
    exact ⟨by omega, fun _ => trivial⟩

mutual

/-- A text has more than half as many characters as its value takes calls. -/
theorem cost_le : ∀ (value : Value) {text : Str}, write floats format value = .ok text →
    Serializable format value → cost value ≤ 2 * text.length
  | .seq values, text, h, hserial => by
    obtain ⟨texts, htexts, htext⟩ := bind_ok h
    cases htext
    have hvalues := costAll_le values htexts hserial
    simp only [cost, List.length_cons, List.length_append]
    omega
  | .dict items, text, h, hserial => by
    obtain ⟨texts, htexts, htext⟩ := bind_ok h
    cases htext
    have hitems := costItems_le items htexts hserial.2
    simp only [cost, List.length_cons, List.length_append]
    omega
  | .none, text, h, hserial | .bool _, text, h, hserial | .int _, text, h, hserial
  | .float _, text, h, hserial | .str _, text, h, hserial | .other, text, h, hserial => by
    obtain ⟨c, tail, rfl, -⟩ := write_begins h hserial
    simp only [cost, List.length_cons]
    omega

theorem costAll_le : ∀ (values : List Value) {texts : List Str},
    writeAll floats format values = .ok texts → AllSerializable format values →
    costAll values ≤ 2 * (join (str ",") texts).length + 1
  | [], _, _, _ => Nat.zero_le _
  | value :: values, texts, h, hserial => by
    obtain ⟨text, texts', htext, htexts', rfl⟩ := writeAll_cons h
    have hvalue := cost_le value htext hserial.1
    have hvalues := costAll_le values htexts' hserial.2
    have hjoin := join_length_le (str ",") text texts'
    have hcomma : (str ",").length = 1 := rfl
    simp only [costAll]
    cases values with
    | nil =>
      simp only [costAll]
      omega
    | cons value' values =>
      obtain ⟨text', texts'', -, -, rfl⟩ := writeAll_cons htexts'
      have hmore := hjoin.2 (by simp)
      omega

theorem costItems_le : ∀ (items : List (Key × Value)) {texts : List Str},
    writeItems floats format items = .ok texts → ItemsSerializable format items →
    costItems items ≤ 2 * (join (str ",") texts).length + 1
  | [], _, _, _ => Nat.zero_le _
  | (.other, _) :: _, _, _, hserial => hserial.elim
  | (.str name, value) :: items, texts, h, hserial => by
    obtain ⟨text, texts', htext, htexts', rfl⟩ := writeItems_cons h
    have hvalue := cost_le value htext hserial.2.1
    have hitems := costItems_le items htexts' hserial.2.2
    have hjoin := join_length_le (str ",") (itemText format name text) texts'
    have hlength : text.length < (itemText format name text).length := by
      simp only [itemText, List.length_append, List.length_cons]
      omega
    simp only [costItems]
    omega

end

/-! ### The whole text -/

/-- Blanks may follow. -/
theorem loads_write_append {value : Value} {text blanks : Str}
    (h : write floats format value = .ok text) (hserial : Serializable format value)
    (hblanks : ∀ c ∈ blanks, isWhitespace c = true) : loads floats (text ++ blanks) = .ok value := by
  have hskip : skip (text ++ blanks) = text ++ blanks := (write_begins h hserial).skip_append
  have hcost := cost_le value h hserial
  have hscan : scan floats (2 * (text ++ blanks).length + 1) (text ++ blanks) = .ok (value, blanks) :=
    scan_write value h hserial (by rw [List.length_append]; omega) (ends_blanks hblanks)
  have hrest : skip blanks = [] := List.dropWhile_eq_nil_iff.mpr hblanks
  rw [loads, hskip, hscan]
  exact if_pos hrest

theorem loads_write {value : Value} {text : Str} (h : write floats format value = .ok text)
    (hserial : Serializable format value) : loads floats text = .ok value := by
  have hloads : loads floats (text ++ []) = .ok value :=
    loads_write_append h hserial fun _ hc => nomatch hc
  rwa [List.append_nil] at hloads

theorem itemsSerializable_iff {items : List (Key × Value)} :
    ItemsSerializable format items ↔ ∀ item ∈ items, ∃ name, item.1 = .str name ∧
      (format.ensureAscii = true → PairFree name) ∧ Serializable format item.2 := by
  induction items with
  | nil => exact ⟨fun _ _ hitem => (nomatch hitem), fun _ => trivial⟩
  | cons item rest ih =>
    obtain ⟨key, value⟩ := item
    rw [List.forall_mem_cons, ← ih]
    cases key with
    | other =>
      constructor
      · intro h
        exact h.elim
      · rintro ⟨⟨name, hname, -⟩, -⟩
        cases hname
    | str name =>
      constructor
      · rintro ⟨hname, hvalue, hrest⟩
        exact ⟨⟨name, rfl, hname, hvalue⟩, hrest⟩
      · rintro ⟨⟨name', hname', hfree, hvalue⟩, hrest⟩
        cases hname'
        exact ⟨hfree, hvalue, hrest⟩

theorem sortItems_perm (items : Dict) : (sortItems items).Perm items :=
  List.perm_insertionSort ..

theorem names_arrangeItems (items : List (Key × Value)) :
    Dict.names (arrangeItems items) = Dict.names items := by
  induction items with
  | nil => rfl
  | cons item rest ih =>
    obtain ⟨key, value⟩ := item
    cases key with
    | other => exact ih
    | str name => exact congrArg (name :: ·) ih

mutual

theorem serializable_arrange : ∀ (value : Value), Serializable format value →
    Serializable format (arrange value)
  | .seq values, h => allSerializable_arrange values h
  | .dict items, h => by
    refine ⟨?_, ?_⟩
    · have hperm : (Dict.names (sortItems (arrangeItems items))).Perm
          (Dict.names (arrangeItems items)) := (sortItems_perm _).filterMap _
      rw [hperm.nodup_iff, names_arrangeItems]
      exact h.1
    · rw [itemsSerializable_iff]
      intro item hitem
      exact itemsSerializable_iff.mp (itemsSerializable_arrange items h.2) item
        ((sortItems_perm _).mem_iff.mp hitem)
  | .none, h | .bool _, h | .int _, h | .float _, h | .str _, h | .other, h => h

theorem allSerializable_arrange : ∀ (values : List Value), AllSerializable format values →
    AllSerializable format (arrangeAll values)
  | [], _ => trivial
  | value :: values, h => ⟨serializable_arrange value h.1, allSerializable_arrange values h.2⟩

theorem itemsSerializable_arrange : ∀ (items : List (Key × Value)),
    ItemsSerializable format items → ItemsSerializable format (arrangeItems items)
  | [], _ => trivial
  | (.other, _) :: _, h => h.elim
  | (.str _, value) :: items, h =>
    ⟨h.1, serializable_arrange value h.2.1, itemsSerializable_arrange items h.2.2⟩

end

mutual

theorem write_ok : ∀ (value : Value), Serializable format value →
    ∃ text, write floats format value = .ok text
  | .none, _ => ⟨_, rfl⟩
  | .bool true, _ => ⟨_, rfl⟩
  | .bool false, _ => ⟨_, rfl⟩
  | .int n, h => by
    refine ⟨if n < 0 then ord '-' :: natRepr n.natAbs else natRepr n.natAbs, ?_⟩
    exact if_neg (Nat.not_lt.mpr h)
  | .float (.finite _), _ => ⟨_, rfl⟩
  | .float (.inf _), h => ⟨_, if_pos h⟩
  | .float .nan, h => ⟨_, if_pos h⟩
  | .str _, _ => ⟨_, rfl⟩
  | .seq values, h => by
    obtain ⟨texts, htexts⟩ := writeAll_ok values h
    exact ⟨ord '[' :: (join (str ",") texts ++ str "]"), by rw [write, htexts]; rfl⟩
  | .dict items, h => by
    obtain ⟨texts, htexts⟩ := writeItems_ok items h.2
    exact ⟨ord '\x7b' :: (join (str ",") texts ++ str "\x7d"), by rw [write, htexts]; rfl⟩

theorem writeAll_ok : ∀ (values : List Value), AllSerializable format values →
    ∃ texts, writeAll floats format values = .ok texts
  | [], _ => ⟨[], rfl⟩
  | value :: values, h => by
    obtain ⟨text, htext⟩ := write_ok value h.1
    obtain ⟨texts, htexts⟩ := writeAll_ok values h.2
    exact ⟨text :: texts, by rw [writeAll, htext, htexts]; rfl⟩

theorem writeItems_ok : ∀ (items : List (Key × Value)), ItemsSerializable format items →
    ∃ texts, writeItems floats format items = .ok texts
  | [], _ => ⟨[], rfl⟩
  | (.other, _) :: _, h => h.elim
  | (.str name, value) :: items, h => by
    obtain ⟨text, htext⟩ := write_ok value h.2.1
    obtain ⟨texts, htexts⟩ := writeItems_ok items h.2.2
    exact ⟨itemText format name text :: texts, by rw [writeItems, htext, htexts]; rfl⟩

end

/-- What is read of a written value. -/
def written (format : Format) (value : Value) : Value :=
  if format.sortKeys then arrange value else value

theorem dumps_loads {value : Value} (h : Serializable format value) :
    ∃ text, dumps floats format value = .ok text ∧
      loads floats text = .ok (written format value) := by
  have hwritten : Serializable format (written format value) := by
    unfold written
    split
    · exact serializable_arrange value h
    · exact h
  have hwrite : ∃ text, write floats format (written format value) = .ok text :=
    write_ok (written format value) hwritten
  obtain ⟨text, htext⟩ := hwrite
  exact ⟨text, htext, loads_write htext hwritten⟩

end

end Python.Json
