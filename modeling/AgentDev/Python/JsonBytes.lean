import AgentDev.Python.JsonLines
import AgentDev.Python.Utf8

/-!
# `json.loads` of bytes

The encoding of the bytes is guessed from the first of them, and they are decoded with
`surrogatepass`. Bytes that cannot be decoded, numerals with too many digits and values that are too
deep are errors of other classes than `JSONDecodeError`.

The bytes of a line are read as the value that they were written for (`loadsBytes_lineBytes`).
-/

namespace Python

/-! ## Decoding -/

/-- The bits of a continuation byte. -/
def continuation (b : UInt8) : Option Nat :=
  if 0x80 ≤ b.toNat && b.toNat < 0xC0 then some (b.toNat - 0x80) else none

/-- A character before the rest of a text. -/
def prepend (n : Nat) (rest : Option Str) : Option Str := rest.map (chr n :: ·)

/-- `b.decode("utf-8", "surrogatepass")`; `none` is a `UnicodeDecodeError`. -/
def decodeUtf8 : List UInt8 → Option Str
  | [] => some []
  | b :: rest =>
    if b.toNat < 0x80 then prepend b.toNat (decodeUtf8 rest)
    else if b.toNat < 0xC0 then none
    else
      match rest with
      | [] => none
      | b₁ :: rest =>
        match continuation b₁ with
        | none => none
        | some x =>
          if b.toNat < 0xE0 then
            let n := (b.toNat - 0xC0) * 0x40 + x
            if n < 0x80 then none else prepend n (decodeUtf8 rest)
          else
            match rest with
            | [] => none
            | b₂ :: rest =>
              match continuation b₂ with
              | none => none
              | some y =>
                if b.toNat < 0xF0 then
                  let n := (b.toNat - 0xE0) * 0x1000 + x * 0x40 + y
                  if n < 0x800 then none else prepend n (decodeUtf8 rest)
                else
                  match rest with
                  | [] => none
                  | b₃ :: rest =>
                    match continuation b₃ with
                    | none => none
                    | some z =>
                      let n := (b.toNat - 0xF0) * 0x40000 + x * 0x1000 + y * 0x40 + z
                      if n < 0x10000 || 0x10FFFF < n then none else prepend n (decodeUtf8 rest)

/-- The pairs of bytes as numbers. -/
def units16 (big : Bool) : List UInt8 → Option (List Nat)
  | [] => some []
  | [_] => none
  | b₀ :: b₁ :: rest =>
    (units16 big rest).map fun units =>
      (if big then b₀.toNat * 0x100 + b₁.toNat else b₁.toNat * 0x100 + b₀.toNat) :: units

/-- The characters of the units of UTF-16; a surrogate without its partner is a character. -/
def joinUnits16 : List Nat → Str
  | [] => []
  | [n] => [chr n]
  | n :: n' :: rest =>
    if 0xD800 ≤ n && n < 0xDC00 && 0xDC00 ≤ n' && n' < 0xE000 then
      chr (0x10000 + (n - 0xD800) * 0x400 + (n' - 0xDC00)) :: joinUnits16 rest
    else chr n :: joinUnits16 (n' :: rest)

/-- `b.decode("utf-16-be", "surrogatepass")`, or `"utf-16-le"` -/
def decodeUtf16 (big : Bool) (b : List UInt8) : Option Str := (units16 big b).map joinUnits16

/-- `b.decode("utf-32-be", "surrogatepass")`, or `"utf-32-le"` -/
def decodeUtf32 (big : Bool) : List UInt8 → Option Str
  | [] => some []
  | b₀ :: b₁ :: b₂ :: b₃ :: rest =>
    let n :=
      if big then ((b₀.toNat * 0x100 + b₁.toNat) * 0x100 + b₂.toNat) * 0x100 + b₃.toNat
      else ((b₃.toNat * 0x100 + b₂.toNat) * 0x100 + b₁.toNat) * 0x100 + b₀.toNat
    if 0x10FFFF < n then none else prepend n (decodeUtf32 big rest)
  | _ => none

namespace Json

/-- What `detect_encoding` returns. -/
inductive Encoding
  | utf8
  | utf8Sig
  | utf16
  | utf16le
  | utf16be
  | utf32
  | utf32le
  | utf32be
  deriving DecidableEq

/-- `detect_encoding` of bytes without a mark -/
def guessEncoding : List UInt8 → Encoding
  | [b₀, b₁] => if b₀ = 0 then .utf16be else if b₁ = 0 then .utf16le else .utf8
  | b₀ :: b₁ :: b₂ :: b₃ :: _ =>
    if b₀ = 0 then if b₁ = 0 then .utf32be else .utf16be
    else if b₁ = 0 then if b₂ = 0 && b₃ = 0 then .utf32le else .utf16le
    else .utf8
  | _ => .utf8

/-- `detect_encoding` -/
def detectEncoding (b : List UInt8) : Encoding :=
  if [0, 0, 0xFE, 0xFF].isPrefixOf b || [0xFF, 0xFE, 0, 0].isPrefixOf b then .utf32
  else if [0xFE, 0xFF].isPrefixOf b || [0xFF, 0xFE].isPrefixOf b then .utf16
  else if [0xEF, 0xBB, 0xBF].isPrefixOf b then .utf8Sig
  else guessEncoding b

/-- `b.decode(encoding, "surrogatepass")`; the byte order mark of an encoding that has one is read
with it. -/
def decode (b : List UInt8) : Encoding → Option Str
  | .utf8 => decodeUtf8 b
  | .utf8Sig => decodeUtf8 (b.drop 3)
  | .utf16 => decodeUtf16 (b.head? = some 0xFE) (b.drop 2)
  | .utf16le => decodeUtf16 false b
  | .utf16be => decodeUtf16 true b
  | .utf32 => decodeUtf32 (b.head? = some 0) (b.drop 4)
  | .utf32le => decodeUtf32 false b
  | .utf32be => decodeUtf32 true b

/-! ## Depth -/

mutual

/-- The depth of the arrays and objects that `scan_once` enters before it ends, in a value or in an
error. -/
def depth (floats : FloatText) : Nat → Str → Nat
  | 0, _ => 0
  | _ + 1, [] => 0
  | fuel + 1, c :: rest =>
    if c = ord '\x7b' then
      if (skip rest).head? = some (ord '\x7d') then 1 else depthItems floats fuel (skip rest) + 1
    else if c = ord '[' then
      if (skip rest).head? = some (ord ']') then 1 else depthValues floats fuel (skip rest) + 1
    else 0

def depthValues (floats : FloatText) : Nat → Str → Nat
  | 0, _ => 0
  | fuel + 1, s =>
    max (depth floats fuel s)
      (match scan floats fuel s >>= fun result => expect ',' (skip result.2) with
      | .ok s => depthValues floats fuel (skip s)
      | .error _ => 0)

def depthItems (floats : FloatText) : Nat → Str → Nat
  | 0, _ => 0
  | fuel + 1, s =>
    match (do expect ':' (skip (← scanString (← expect '"' s)).2)) with
    | .ok s =>
      max (depth floats fuel (skip s))
        (match scan floats fuel (skip s) >>= fun result => expect ',' (skip result.2) with
        | .ok s => depthItems floats fuel (skip s)
        | .error _ => 0)
    | .error _ => 0

end

/-! ## Reading -/

/-- What `json.loads` of bytes raises. -/
inductive BytesError
  /-- `JSONDecodeError` -/
  | decode
  /-- `UnicodeDecodeError` -/
  | unicode
  /-- `ValueError`, of a numeral -/
  | value
  /-- `RecursionError` -/
  | recursion
  deriving DecidableEq

/-- `json.loads(s)` of a string, by an interpreter that allows the depth `limit`. -/
def loadsWithin (floats : FloatText) (limit : Nat) (s : Str) : Except BytesError Value :=
  if limit < depth floats (2 * s.length + 1) (skip s) then .error .recursion
  else
    match loads floats s with
    | .ok value => .ok value
    | .error .decode => .error .decode
    | .error _ => .error .value

/-- `json.loads(b)` -/
def loadsBytes (floats : FloatText) (limit : Nat) (b : List UInt8) : Except BytesError Value :=
  match decode b (detectEncoding b) with
  | none => .error .unicode
  | some s => loadsWithin floats limit s

/-! ## The depth of a written value -/

mutual

/-- How deep the arrays and objects of a value are. -/
def nesting : Value → Nat
  | .seq values => nestingAll values + 1
  | .dict items => nestingItems items + 1
  | _ => 0

def nestingAll : List Value → Nat
  | [] => 0
  | value :: rest => max (nesting value) (nestingAll rest)

def nestingItems : List (Key × Value) → Nat
  | [] => 0
  | (_, value) :: rest => max (nesting value) (nestingItems rest)

end

section

variable {floats : FloatText} {format : Format}

theorem depth_atom {c : CodePoint} {rest : Str} (hobject : c ≠ ord '\x7b') (hlist : c ≠ ord '[')
    (fuel : Nat) : depth floats fuel (c :: rest) = 0 := by
  cases fuel with
  | zero => rfl
  | succ fuel => rw [depth, if_neg hobject, if_neg hlist]

theorem depthValues_last {value : Value} {s rest : Str} {fuel : Nat}
    (h : scan floats fuel s = .ok (value, ord ']' :: rest)) :
    depthValues floats (fuel + 1) s = depth floats fuel s := by
  rw [depthValues, h]
  exact Nat.max_eq_left (Nat.zero_le _)

theorem depthValues_more {value : Value} {s rest : Str} {fuel : Nat}
    (h : scan floats fuel s = .ok (value, ord ',' :: rest)) :
    depthValues floats (fuel + 1) s =
      max (depth floats fuel s) (depthValues floats fuel (skip rest)) := by
  rw [depthValues, h]
  rfl

/-- The name of an item is read up to its value. -/
theorem depthItems_item {name text rest : Str} {fuel : Nat}
    (hname : format.ensureAscii = true → PairFree name) (htext : Begins text) :
    depthItems floats (fuel + 1) (itemText format name text ++ rest) =
      max (depth floats fuel (text ++ rest))
        (match scan floats fuel (text ++ rest) >>= fun result => expect ',' (skip result.2) with
        | .ok s => depthItems floats fuel (skip s)
        | .error _ => 0) := by
  have happend : itemText format name text ++ rest =
      ord '"' :: (name.flatMap (escapeChar format.ensureAscii) ++
        ord '"' :: (ord ':' :: (text ++ rest))) := by
    simp [itemText, writeStr]
  have hskip : skip (text ++ rest) = text ++ rest := htext.skip_append
  have hstart : (do expect ':' (skip (← scanString (← expect '"'
      (itemText format name text ++ rest))).2)) = .ok (text ++ rest) := by
    rw [happend]
    show (scanString _ >>= _) = _
    rw [scanString_writeStr hname]
    rfl
  rw [depthItems, hstart]
  dsimp only
  rw [hskip]

theorem depthItems_last {name text rest : Str} {value : Value} {fuel : Nat}
    (hname : format.ensureAscii = true → PairFree name) (htext : Begins text)
    (h : scan floats fuel (text ++ ord '\x7d' :: rest) = .ok (value, ord '\x7d' :: rest)) :
    depthItems floats (fuel + 1) (itemText format name text ++ ord '\x7d' :: rest) =
      depth floats fuel (text ++ ord '\x7d' :: rest) := by
  rw [depthItems_item hname htext, h]
  exact Nat.max_eq_left (Nat.zero_le _)

theorem depthItems_more {name text rest : Str} {value : Value} {fuel : Nat}
    (hname : format.ensureAscii = true → PairFree name) (htext : Begins text)
    (h : scan floats fuel (text ++ ord ',' :: rest) = .ok (value, ord ',' :: rest)) :
    depthItems floats (fuel + 1) (itemText format name text ++ ord ',' :: rest) =
      max (depth floats fuel (text ++ ord ',' :: rest)) (depthItems floats fuel (skip rest)) := by
  rw [depthItems_item hname htext, h]
  rfl

theorem Numeral.atom {text : Str} (h : Numeral text) :
    ∃ c tail, text = c :: tail ∧ c ≠ ord '\x7b' ∧ c ≠ ord '[' := by
  obtain ⟨c, tail, rfl, hc⟩ := h
  refine ⟨c, tail, rfl, ?_⟩
  rcases hc with hc | ⟨rfl, -⟩
  · constructor
    · rintro rfl
      cases hc
    · rintro rfl
      cases hc
  · exact ⟨by decide, by decide⟩

/-- The text of a value that is no list and no mapping begins neither. -/
theorem write_atom {value : Value} {text : Str} (h : write floats format value = .ok text)
    (hserial : Serializable format value) (hseq : ∀ values, value ≠ .seq values)
    (hdict : ∀ items, value ≠ .dict items) :
    ∃ c tail, text = c :: tail ∧ c ≠ ord '\x7b' ∧ c ≠ ord '[' := by
  cases value with
  | none =>
    cases h
    exact ⟨_, _, rfl, by decide, by decide⟩
  | bool b =>
    cases b with
    | true =>
      cases h
      exact ⟨_, _, rfl, by decide, by decide⟩
    | false =>
      cases h
      exact ⟨_, _, rfl, by decide, by decide⟩
  | int n => exact (intRepr_numeral h).atom
  | float x =>
    cases x with
    | finite q =>
      cases h
      exact (floats.literal q hserial).numeral.atom
    | inf negative =>
      have hnan : format.allowNan = true := hserial
      cases negative with
      | true =>
        cases (if_pos hnan).symm.trans h
        exact ⟨_, _, rfl, by decide, by decide⟩
      | false =>
        cases (if_pos hnan).symm.trans h
        exact ⟨_, _, rfl, by decide, by decide⟩
    | nan =>
      have hnan : format.allowNan = true := hserial
      cases (if_pos hnan).symm.trans h
      exact ⟨_, _, rfl, by decide, by decide⟩
  | str s =>
    cases h
    exact ⟨_, _, rfl, by decide, by decide⟩
  | seq values => exact absurd rfl (hseq values)
  | dict items => exact absurd rfl (hdict items)
  | other => cases h

mutual

theorem depth_write : ∀ (value : Value) {text rest : Str} {fuel : Nat},
    write floats format value = .ok text → Serializable format value →
    cost value ≤ fuel → Ends rest → depth floats fuel (text ++ rest) ≤ nesting value
  | value, text, rest, 0, _, _, hcost, _ => absurd hcost (by have := cost_pos value; omega)
  | .seq [], text, rest, fuel + 1, h, _, _, _ => by
    cases h
    exact Nat.le_refl 1
  | .seq (value :: values), text, rest, fuel + 1, h, hserial, hcost, _ => by
    obtain ⟨texts, htexts, htext⟩ := bind_ok h
    cases htext
    simp only [cost] at hcost
    have hvalues : depthValues floats fuel (join (str ",") texts ++ ord ']' :: rest) ≤
        nestingAll (value :: values) :=
      depthValues_write (value :: values) (by simp) htexts hserial (by omega)
    obtain ⟨text, texts', hvalue, -, rfl⟩ := writeAll_cons htexts
    have hbegins : Begins (join (str ",") (text :: texts')) :=
      begins_join (write_begins hvalue hserial.1) texts'
    have happend : ord '[' :: (join (str ",") (text :: texts') ++ str "]") ++ rest =
        ord '[' :: (join (str ",") (text :: texts') ++ ord ']' :: rest) := by
      simp [show str "]" = [ord ']'] from rfl]
    rw [happend, depth, if_neg (by decide), if_pos rfl, hbegins.skip_append,
      if_neg hbegins.head_ne.1, nesting]
    exact Nat.succ_le_succ hvalues
  | .dict [], text, rest, fuel + 1, h, _, _, _ => by
    cases h
    exact Nat.le_refl 1
  | .dict ((key, value) :: items), text, rest, fuel + 1, h, hserial, hcost, _ => by
    obtain ⟨texts, htexts, htext⟩ := bind_ok h
    cases htext
    simp only [cost] at hcost
    have hitems : depthItems floats fuel (join (str ",") texts ++ ord '\x7d' :: rest) ≤
        nestingItems ((key, value) :: items) :=
      depthItems_write ((key, value) :: items) (by simp) htexts hserial.2 (by omega)
    cases key with
    | other => exact hserial.2.elim
    | str name =>
      obtain ⟨text, texts', -, -, rfl⟩ := writeItems_cons htexts
      have hbegins : Begins (join (str ",") (itemText format name text :: texts')) :=
        begins_join (begins_itemText name text) texts'
      have happend : ord '\x7b' :: (join (str ",") (itemText format name text :: texts') ++ str "\x7d") ++
          rest = ord '\x7b' :: (join (str ",") (itemText format name text :: texts') ++
            ord '\x7d' :: rest) := by
        simp [show str "\x7d" = [ord '\x7d'] from rfl]
      rw [happend, depth, if_pos rfl, hbegins.skip_append, if_neg hbegins.head_ne.2, nesting]
      exact Nat.succ_le_succ hitems
  | .none, text, rest, fuel + 1, h, hserial, _, hrest
  | .bool _, text, rest, fuel + 1, h, hserial, _, hrest
  | .int _, text, rest, fuel + 1, h, hserial, _, hrest
  | .float _, text, rest, fuel + 1, h, hserial, _, hrest
  | .str _, text, rest, fuel + 1, h, hserial, _, hrest
  | .other, text, rest, fuel + 1, h, hserial, _, hrest => by
    obtain ⟨c, tail, rfl, hobject, hlist⟩ := write_atom h hserial (fun _ heq => nomatch heq)
      (fun _ heq => nomatch heq)
    rw [List.cons_append, depth_atom hobject hlist]
    exact Nat.zero_le _

theorem depthValues_write : ∀ (values : List Value) {texts : List Str} {rest : Str} {fuel : Nat},
    values ≠ [] → writeAll floats format values = .ok texts → AllSerializable format values →
    costAll values ≤ fuel →
    depthValues floats fuel (join (str ",") texts ++ ord ']' :: rest) ≤ nestingAll values
  | [], _, _, _, hne, _, _, _ => absurd rfl hne
  | value :: values, texts, rest, 0, _, _, _, hcost =>
    absurd hcost (by simp only [costAll]; omega)
  | [value], texts, rest, fuel + 1, _, h, hserial, hcost => by
    obtain ⟨text, texts', htext, htexts', rfl⟩ := writeAll_cons h
    cases htexts'
    simp only [costAll] at hcost
    have hscan : scan floats fuel (text ++ ord ']' :: rest) = .ok (value, ord ']' :: rest) :=
      scan_write value htext hserial.1 (by omega) ends_bracket
    have hdepth : depth floats fuel (text ++ ord ']' :: rest) ≤ nesting value :=
      depth_write value htext hserial.1 (by omega) ends_bracket
    show depthValues floats (fuel + 1) (text ++ ord ']' :: rest) ≤ max (nesting value) 0
    rw [depthValues_last hscan]
    exact le_max_of_le_left hdepth
  | value :: value' :: values, texts, rest, fuel + 1, _, h, hserial, hcost => by
    obtain ⟨text, texts', htext, htexts', rfl⟩ := writeAll_cons h
    have hrest : depthValues floats fuel (join (str ",") texts' ++ ord ']' :: rest) ≤
        nestingAll (value' :: values) :=
      depthValues_write (value' :: values) (by simp) htexts' hserial.2
        (by simp only [costAll] at hcost ⊢; omega)
    obtain ⟨text', texts'', htext', -, rfl⟩ := writeAll_cons htexts'
    have hbegins : Begins (join (str ",") (text' :: texts'')) :=
      begins_join (write_begins htext' hserial.2.1) texts''
    have happend : join (str ",") (text :: text' :: texts'') ++ ord ']' :: rest =
        text ++ ord ',' :: (join (str ",") (text' :: texts'') ++ ord ']' :: rest) := by
      simp [join_cons_cons, show str "," = [ord ','] from rfl]
    simp only [costAll] at hcost
    rw [happend, depthValues_more (scan_write value htext hserial.1 (by omega) ends_comma),
      hbegins.skip_append, nestingAll]
    exact max_le_max (depth_write value htext hserial.1 (by omega) ends_comma) hrest

theorem depthItems_write : ∀ (items : List (Key × Value)) {texts : List Str} {rest : Str} {fuel : Nat},
    items ≠ [] → writeItems floats format items = .ok texts → ItemsSerializable format items →
    costItems items ≤ fuel →
    depthItems floats fuel (join (str ",") texts ++ ord '\x7d' :: rest) ≤ nestingItems items
  | [], _, _, _, hne, _, _, _ => absurd rfl hne
  | (.other, _) :: _, _, _, _, _, _, hserial, _ => hserial.elim
  | (.str name, value) :: items, texts, rest, 0, _, _, _, hcost =>
    absurd hcost (by simp only [costItems]; omega)
  | [(.str name, value)], texts, rest, fuel + 1, _, h, hserial, hcost => by
    obtain ⟨text, texts', htext, htexts', rfl⟩ := writeItems_cons h
    cases htexts'
    obtain ⟨hname, hvalue, -⟩ := hserial
    simp only [costItems] at hcost
    have hscan : scan floats fuel (text ++ ord '\x7d' :: rest) = .ok (value, ord '\x7d' :: rest) :=
      scan_write value htext hvalue (by omega) ends_brace
    show depthItems floats (fuel + 1) (itemText format name text ++ ord '\x7d' :: rest) ≤
      max (nesting value) 0
    rw [depthItems_last hname (write_begins htext hvalue) hscan]
    exact le_max_of_le_left (depth_write value htext hvalue (by omega) ends_brace)
  | (.str name, value) :: (.other, _) :: items, _, _, _ + 1, _, _, hserial, _ =>
    hserial.2.2.elim
  | (.str name, value) :: (.str name', value') :: items, texts, rest, fuel + 1, _, h, hserial,
    hcost => by
    obtain ⟨text, texts', htext, htexts', rfl⟩ := writeItems_cons h
    obtain ⟨hname, hvalue, hothers⟩ := hserial
    have hrest : depthItems floats fuel (join (str ",") texts' ++ ord '\x7d' :: rest) ≤
        nestingItems ((.str name', value') :: items) :=
      depthItems_write ((.str name', value') :: items) (by simp) htexts' hothers
        (by simp only [costItems] at hcost ⊢; omega)
    obtain ⟨text', texts'', -, -, rfl⟩ := writeItems_cons htexts'
    have hbegins : Begins (join (str ",") (itemText format name' text' :: texts'')) :=
      begins_join (begins_itemText name' text') texts''
    have happend : join (str ",") (itemText format name text :: itemText format name' text' :: texts'') ++
        ord '\x7d' :: rest = itemText format name text ++ ord ',' ::
          (join (str ",") (itemText format name' text' :: texts'') ++ ord '\x7d' :: rest) := by
      simp [join_cons_cons, show str "," = [ord ','] from rfl]
    simp only [costItems] at hcost
    rw [happend, depthItems_more hname (write_begins htext hvalue)
      (scan_write value htext hvalue (by omega) ends_comma), hbegins.skip_append, nestingItems]
    exact max_le_max (depth_write value htext hvalue (by omega) ends_comma) hrest

end

/-- A written value is read within its own depth. -/
theorem loadsWithin_write {value : Value} {text blanks : Str} {limit : Nat}
    (h : write floats format value = .ok text) (hserial : Serializable format value)
    (hblanks : ∀ c ∈ blanks, isWhitespace c = true) (hlimit : nesting value ≤ limit) :
    loadsWithin floats limit (text ++ blanks) = .ok value := by
  have hskip : skip (text ++ blanks) = text ++ blanks := (write_begins h hserial).skip_append
  have hcost := cost_le value h hserial
  have hdepth : depth floats (2 * (text ++ blanks).length + 1) (text ++ blanks) ≤ nesting value :=
    depth_write value h hserial (by rw [List.length_append]; omega) (ends_blanks hblanks)
  rw [loadsWithin, hskip, if_neg (by omega), loads_write_append h hserial hblanks]

end

/-! ## The bytes of a line -/

/-- The byte of an ASCII character. -/
def asciiByte (c : CodePoint) : UInt8 := UInt8.ofNat c.val

theorem asciiByte_toNat {c : CodePoint} (h : c.val < 128) : (asciiByte c).toNat = c.val := by
  rw [asciiByte, UInt8.toNat_ofNat']
  omega

theorem encodeUtf8_ascii {s : Str} (h : ∀ c ∈ s, c.val < 128) :
    encodeUtf8 s = some (s.map asciiByte) := by
  have hscalar : ∀ c ∈ s, IsScalar c := fun c hc => Or.inl (Nat.lt_trans (h c hc) (by decide))
  rw [encodeUtf8_of_scalar hscalar, List.flatMap_map, List.map_eq_flatMap]
  congr 1
  apply List.flatMap_congr
  intro c hc
  have hlt := h c hc
  have hval : (Char.ofNat c.val).val.toNat = c.val := toNat_ofNat (hscalar c hc)
  rw [String.utf8EncodeChar, hval]
  exact if_pos (by omega)

theorem decodeUtf8_cons {b : UInt8} (h : b.toNat < 0x80) (rest : List UInt8) :
    decodeUtf8 (b :: rest) = prepend b.toNat (decodeUtf8 rest) := by
  rw [decodeUtf8.eq_def]
  exact if_pos h

theorem decodeUtf8_ascii {s : Str} (h : ∀ c ∈ s, c.val < 128) :
    decodeUtf8 (s.map asciiByte) = some s := by
  induction s with
  | nil => rfl
  | cons c rest ih =>
    have hlt := h c List.mem_cons_self
    have hc : (asciiByte c).toNat = c.val := asciiByte_toNat hlt
    rw [List.map_cons, decodeUtf8_cons (by omega), hc,
      ih fun d hd => h d (List.mem_cons_of_mem c hd), prepend, chr_of_val]
    rfl

theorem guessEncoding_of_ne {b : List UInt8} (h : ∀ x ∈ b, x ≠ 0) : guessEncoding b = .utf8 := by
  fun_cases guessEncoding b with
  | case1 b₁ => exact absurd rfl (h 0 List.mem_cons_self)
  | case2 b₀ => exact absurd rfl (h 0 (by simp))
  | case3 => rfl
  | case4 b₂ b₃ rest => exact absurd rfl (h 0 List.mem_cons_self)
  | case5 b₁ b₂ b₃ rest => exact absurd rfl (h 0 List.mem_cons_self)
  | case6 => exact absurd rfl (h 0 (by simp))
  | case7 => exact absurd rfl (h 0 (by simp))
  | case8 => rfl
  | case9 => rfl

/-- Bytes without zeros, and without the bytes that begin a mark, are UTF-8. -/
theorem detectEncoding_ascii {b : List UInt8} (h : ∀ x ∈ b, x ≠ 0 ∧ x.toNat < 128) :
    detectEncoding b = .utf8 := by
  have hmark : ∀ {mark : UInt8} {marks : List UInt8}, mark = 0 ∨ 128 ≤ mark.toNat →
      (mark :: marks).isPrefixOf b = false := by
    intro mark marks hmark
    cases b with
    | nil => rfl
    | cons x rest =>
      have hx := h x List.mem_cons_self
      have hne : (mark == x) = false := by
        rw [beq_eq_false_iff_ne]
        rintro rfl
        rcases hmark with hzero | hwide
        · exact hx.1 hzero
        · omega
      rw [List.isPrefixOf_cons_cons, hne, Bool.false_and]
  rw [detectEncoding, hmark (Or.inl rfl), hmark (Or.inr (by decide)), hmark (Or.inr (by decide)),
    hmark (Or.inr (by decide)), hmark (Or.inr (by decide))]
  exact guessEncoding_of_ne fun x hx => (h x hx).1

/-- `json.dumps(value, separators=(",", ":")).encode() + b"\n"` -/
def lineBytes (floats : FloatText) (value : Value) : Except Error (List UInt8) := do
  match encodeUtf8 (← dumps floats lineFormat value) with
  | some bytes => return bytes ++ [0x0A]
  | none => .error .value

section

variable {floats : FloatText} {value : Value}

/-- The bytes of a line are those of its characters. -/
theorem lineBytes_eq (floats : FloatText) (hserial : Serializable lineFormat value) :
    ∃ text, dumps floats lineFormat value = .ok text ∧ (∀ c ∈ text, IsPlain c) ∧
      lineBytes floats value = .ok ((text ++ [newline]).map asciiByte) := by
  obtain ⟨text, htext⟩ : ∃ text, write floats lineFormat value = .ok text := write_ok value hserial
  have hdumps : dumps floats lineFormat value = .ok text := htext
  have hplain := isPlain_write value htext hserial rfl
  refine ⟨text, hdumps, hplain, ?_⟩
  rw [lineBytes, hdumps]
  show (match encodeUtf8 text with
    | some bytes => _
    | none => _) = _
  rw [encodeUtf8_ascii fun c hc => (hplain c hc).2, List.map_append]
  rfl

/-- A line is read as the value that it was written for. -/
theorem loadsBytes_lineBytes {bytes : List UInt8} {limit : Nat}
    (h : lineBytes floats value = .ok bytes) (hserial : Serializable lineFormat value)
    (hlimit : nesting value ≤ limit) : loadsBytes floats limit bytes = .ok value := by
  obtain ⟨text, hdumps, hplain, hbytes⟩ := lineBytes_eq floats hserial
  cases hbytes.symm.trans h
  have hascii : ∀ c ∈ text ++ [newline], 0 < c.val ∧ c.val < 128 := by
    intro c hc
    rcases List.mem_append.mp hc with hc | hc
    · have := hplain c hc
      exact ⟨Nat.lt_of_lt_of_le (by decide) this.1, this.2⟩
    · rw [List.mem_singleton.mp hc]
      decide
  have hencoding : detectEncoding ((text ++ [newline]).map asciiByte) = .utf8 := by
    apply detectEncoding_ascii
    intro x hx
    obtain ⟨c, hc, rfl⟩ := List.mem_map.mp hx
    obtain ⟨hpos, hlt⟩ := hascii c hc
    rw [asciiByte_toNat hlt]
    refine ⟨?_, hlt⟩
    intro hzero
    have := asciiByte_toNat hlt
    rw [hzero] at this
    exact absurd this (Nat.ne_of_lt hpos)
  rw [loadsBytes, hencoding, decode, decodeUtf8_ascii fun c hc => (hascii c hc).2]
  apply loadsWithin_write hdumps hserial _ hlimit
  intro c hc
  rw [List.mem_singleton.mp hc]
  decide

end

end Json

end Python
