import AgentDev.Python.Numerals

/-!
# The `json` module

`json.dumps` with compact separators, and `json.loads` of a string. Texts of floats are a
parameter (`FloatText`), as only their being read back matters.

An escaped surrogate pair is read as one character, and surrogates that are not escaped stay as they
are, so the reader first collects units that remember whether they were escaped.
-/

namespace Python

/-- `int` and `str` refuse longer numerals (`sys.int_info.default_max_str_digits`). -/
def maxStrDigits : Nat := 4300

/-- The value is that of a finite `float`. -/
def IsDouble (q : Rat) : Prop :=
  ∃ (mantissa exponent : Int), mantissa.natAbs < 2 ^ 53 ∧ -1074 ≤ exponent ∧ exponent ≤ 971 ∧
    q = mantissa * (2 : Rat) ^ exponent

namespace Json

inductive Error
  /-- `TypeError` -/
  | type
  /-- `ValueError` -/
  | value
  /-- `JSONDecodeError` -/
  | decode
  deriving DecidableEq

/-! ## Number literals -/

/-- The integral part of a number literal. -/
def IsInteger (s : Str) : Prop :=
  s = [ord '0'] ∨ ∃ c rest, s = c :: rest ∧ c ≠ ord '0' ∧ isDigit c = true ∧
    ∀ d ∈ rest, isDigit d = true

def IsFraction (s : Str) : Prop :=
  ∃ c rest, s = ord '.' :: c :: rest ∧ isDigit c = true ∧ ∀ d ∈ rest, isDigit d = true

def IsExponent (s : Str) : Prop :=
  ∃ sign c rest, s = ord 'e' :: (sign ++ c :: rest) ∧ (sign = [] ∨ sign = str "+" ∨ sign = str "-") ∧
    isDigit c = true ∧ ∀ d ∈ rest, isDigit d = true

/-- A number literal that is not an integer. -/
structure IsFloatLiteral (s : Str) : Prop where
  parts : ∃ sign int frac exp, s = sign ++ (int ++ (frac ++ exp)) ∧
    (sign = [] ∨ sign = str "-") ∧ IsInteger int ∧ (frac = [] ∨ IsFraction frac) ∧
    (exp = [] ∨ IsExponent exp) ∧ frac ++ exp ≠ []

/-- `float.__repr__` and `float` of finite floats. -/
structure FloatText where
  repr : Rat → Str
  parse : Str → FloatValue
  literal : ∀ q, IsDouble q → IsFloatLiteral (repr q)
  parse_repr : ∀ q, IsDouble q → parse (repr q) = .finite q

/-! ## Writing -/

/-- The keyword arguments of `dumps`. -/
structure Format where
  sortKeys : Bool
  ensureAscii : Bool
  allowNan : Bool

def hexDigit (d : Nat) : CodePoint :=
  if d < 10 then digitChar d else chr (87 + d)

/-- `\uXXXX` -/
def escapeCode (n : Nat) : Str :=
  [ord '\\', ord 'u', hexDigit (n / 4096 % 16), hexDigit (n / 256 % 16), hexDigit (n / 16 % 16),
    hexDigit (n % 16)]

/-- `ESCAPE_DCT`: the characters with an escape of one letter. -/
def shortEscapes : List (CodePoint × CodePoint) :=
  [(ord '\\', ord '\\'), (ord '"', ord '"'), (8, ord 'b'), (12, ord 'f'), (10, ord 'n'),
    (13, ord 'r'), (9, ord 't')]

def highSurrogate (c : CodePoint) : Nat := 0xD800 + (c.val - 0x10000) / 0x400

def lowSurrogate (c : CodePoint) : Nat := 0xDC00 + (c.val - 0x10000) % 0x400

/-- `py_encode_basestring`, or `py_encode_basestring_ascii`, of one character. -/
def escapeChar (ascii : Bool) (c : CodePoint) : Str :=
  match shortEscapes.lookup c with
  | some letter => [ord '\\', letter]
  | none =>
    if c.val < 0x20 || (ascii && 0x7E < c.val) then
      if c.val < 0x10000 then escapeCode c.val
      else escapeCode (highSurrogate c) ++ escapeCode (lowSurrogate c)
    else [c]

def writeStr (ascii : Bool) (s : Str) : Str :=
  ord '"' :: (s.flatMap (escapeChar ascii) ++ [ord '"'])

/-- `int.__repr__` -/
def intRepr (n : Int) : Except Error Str :=
  let digits := natRepr n.natAbs
  if maxStrDigits < digits.length then .error .value
  else .ok (if n < 0 then ord '-' :: digits else digits)

def writeFloat (floats : FloatText) (format : Format) : FloatValue → Except Error Str
  | .finite q => .ok (floats.repr q)
  | .nan => if format.allowNan then .ok (str "NaN") else .error .value
  | .inf negative =>
    if format.allowNan then .ok (if negative then str "-Infinity" else str "Infinity")
    else .error .value

/-- The name of an item. -/
def itemName (item : Key × Value) : Str :=
  match item.1 with
  | .str name => name
  | .other => []

/-- `sorted(dct.items())` -/
def sortItems (items : Dict) : Dict :=
  items.insertionSort fun a b => itemName a ≤ itemName b

mutual

/-- The value with the items of its mappings sorted. -/
def arrange : Value → Value
  | .seq values => .seq (arrangeAll values)
  | .dict items => .dict (sortItems (arrangeItems items))
  | value => value

def arrangeAll : List Value → List Value
  | [] => []
  | value :: rest => arrange value :: arrangeAll rest

def arrangeItems : List (Key × Value) → List (Key × Value)
  | [] => []
  | (key, value) :: rest => (key, arrange value) :: arrangeItems rest

end

mutual

/-- A value, its mappings in the order that they have. -/
def write (floats : FloatText) (format : Format) : Value → Except Error Str
  | .none => .ok (str "null")
  | .bool true => .ok (str "true")
  | .bool false => .ok (str "false")
  | .int n => intRepr n
  | .float x => writeFloat floats format x
  | .str s => .ok (writeStr format.ensureAscii s)
  | .seq values => do
    let texts ← writeAll floats format values
    return ord '[' :: (join (str ",") texts ++ str "]")
  | .dict items => do
    let texts ← writeItems floats format items
    return ord '\x7b' :: (join (str ",") texts ++ str "\x7d")
  | .other => .error .type

def writeAll (floats : FloatText) (format : Format) : List Value → Except Error (List Str)
  | [] => .ok []
  | value :: rest => do
    let text ← write floats format value
    let texts ← writeAll floats format rest
    return text :: texts

def writeItems (floats : FloatText) (format : Format) :
    List (Key × Value) → Except Error (List Str)
  | [] => .ok []
  | (.other, _) :: _ => .error .type
  | (.str name, value) :: rest => do
    let text ← write floats format value
    let texts ← writeItems floats format rest
    return (writeStr format.ensureAscii name ++ ord ':' :: text) :: texts

end

/-- `json.dumps(value, separators=(",", ":"), ...)` -/
def dumps (floats : FloatText) (format : Format) (value : Value) : Except Error Str :=
  write floats format (if format.sortKeys then arrange value else value)

/-! ## Reading -/

/-- A character of a string literal, and whether it was written as `\uXXXX`. -/
structure Unit where
  char : CodePoint
  escaped : Bool

def isHigh (c : CodePoint) : Bool := 0xD800 ≤ c.val && c.val ≤ 0xDBFF

def isLow (c : CodePoint) : Bool := 0xDC00 ≤ c.val && c.val ≤ 0xDFFF

/-- `JOIN_SURROGATES` -/
def joinPair (high low : CodePoint) : CodePoint :=
  chr (0x10000 + (high.val - 0xD800) * 0x400 + (low.val - 0xDC00))

/-- Escaped surrogate pairs become one character. -/
def joinUnits : List Unit → Str
  | [] => []
  | [u] => [u.char]
  | u :: u' :: rest =>
    if u.escaped && u'.escaped && isHigh u.char && isLow u'.char then
      joinPair u.char u'.char :: joinUnits rest
    else u.char :: joinUnits (u' :: rest)

def hexValue? (c : CodePoint) : Option Nat :=
  if 48 ≤ c.val && c.val ≤ 57 then some (c.val - 48)
  else if 97 ≤ c.val && c.val ≤ 102 then some (c.val - 87)
  else if 65 ≤ c.val && c.val ≤ 70 then some (c.val - 55)
  else none

/-- `BACKSLASH`: the escapes of one letter. -/
def longEscapes : List (CodePoint × CodePoint) :=
  [(ord '"', ord '"'), (ord '\\', ord '\\'), (ord '/', ord '/'), (ord 'b', 8), (ord 'f', 12),
    (ord 'n', 10), (ord 'r', 13), (ord 't', 9)]

/-- Where a reader is in a string literal: outside of escapes, after a backslash, or after some
digits of a `\uXXXX` escape. -/
inductive Place
  | plain
  | letter
  | code (digits value : Nat)

/-- The units read after `units`. -/
def after (units : List Unit) (result : List Unit × Str) : List Unit × Str :=
  (units ++ result.1, result.2)

/-- The rest of a string literal after its opening quote, and what comes after it. -/
def scanUnits : Place → Str → Except Error (List Unit × Str)
  | _, [] => .error .decode
  | .plain, c :: rest =>
    if c = ord '"' then .ok ([], rest)
    else if c.val < 0x20 then .error .decode
    else if c = ord '\\' then scanUnits .letter rest
    else (scanUnits .plain rest).map (after [⟨c, false⟩])
  | .letter, c :: rest =>
    match longEscapes.lookup c with
    | some char => (scanUnits .plain rest).map (after [⟨char, false⟩])
    | none => if c = ord 'u' then scanUnits (.code 0 0) rest else .error .decode
  | .code digits value, c :: rest =>
    match hexValue? c with
    | some d =>
      if digits = 3 then
        (scanUnits .plain rest).map (after [⟨chr (16 * value + d), true⟩])
      else scanUnits (.code (digits + 1) (16 * value + d)) rest
    | none => .error .decode

def scanString (s : Str) : Except Error (Str × Str) :=
  (scanUnits .plain s).map fun result => (joinUnits result.1, result.2)

/-! ### Numbers -/

def matchSign : Str → Str × Str
  | [] => ([], [])
  | c :: rest => if c = ord '-' then ([c], rest) else ([], c :: rest)

def matchInteger : Str → Option (Str × Str)
  | [] => none
  | c :: rest =>
    if c = ord '0' then some ([c], rest)
    else if isDigit c then some (c :: rest.takeWhile isDigit, rest.dropWhile isDigit)
    else none

def matchFraction : Str → Str × Str
  | dot :: c :: rest =>
    if dot = ord '.' && isDigit c then
      (dot :: c :: rest.takeWhile isDigit, rest.dropWhile isDigit)
    else ([], dot :: c :: rest)
  | s => ([], s)

/-- The sign of an exponent. -/
def matchExponentSign : Str → Str × Str
  | [] => ([], [])
  | c :: rest => if c = ord '+' || c = ord '-' then ([c], rest) else ([], c :: rest)

def matchExponent : Str → Str × Str
  | [] => ([], [])
  | e :: rest =>
    let (sign, digits) := matchExponentSign rest
    if (e = ord 'e' || e = ord 'E') && digits.takeWhile isDigit ≠ [] then
      (e :: (sign ++ digits.takeWhile isDigit), digits.dropWhile isDigit)
    else ([], e :: rest)

/-- `_match_number_unicode` -/
def scanNumber (floats : FloatText) (s : Str) : Except Error (Value × Str) :=
  let (sign, s) := matchSign s
  match matchInteger s with
  | none => .error .decode
  | some (int, s) =>
    let (frac, s) := matchFraction s
    let (exp, s) := matchExponent s
    if frac ++ exp = [] then
      if maxStrDigits < int.length then .error .value
      else
        let n : Int := natOfDigits int
        .ok (.int (if sign = [] then n else -n), s)
    else .ok (.float (floats.parse (sign ++ (int ++ (frac ++ exp)))), s)

/-! ### Values -/

def isWhitespace (c : CodePoint) : Bool :=
  c = 32 || c = 9 || c = 10 || c = 13

def skip (s : Str) : Str := s.dropWhile isWhitespace

def expect (c : Char) : Str → Except Error Str
  | [] => .error .decode
  | d :: rest => if d = ord c then .ok rest else .error .decode

def literals : List (Str × Value) :=
  [(str "null", .none), (str "true", .bool true), (str "false", .bool false),
    (str "NaN", .float .nan), (str "Infinity", .float (.inf false)),
    (str "-Infinity", .float (.inf true))]

def matchLiteral (s : Str) : Option (Value × Str) :=
  (literals.find? fun literal => literal.1.isPrefixOf s).map fun literal =>
    (literal.2, s.drop literal.1.length)

mutual

/-- `scan_once`; the number bounds the depth of the calls. -/
def scan (floats : FloatText) : Nat → Str → Except Error (Value × Str)
  | 0, _ => .error .decode
  | _ + 1, [] => .error .decode
  | fuel + 1, c :: rest =>
    if c = ord '"' then do
      let (s, rest) ← scanString rest
      return (.str s, rest)
    else if c = ord '\x7b' then
      if (skip rest).head? = some (ord '\x7d') then .ok (.dict [], (skip rest).tail)
      else scanItems floats fuel [] (skip rest)
    else if c = ord '[' then
      if (skip rest).head? = some (ord ']') then .ok (.seq [], (skip rest).tail)
      else scanValues floats fuel [] (skip rest)
    else
      match matchLiteral (c :: rest) with
      | some result => .ok result
      | none => scanNumber floats (c :: rest)

/-- `JSONArray`, after the values that have been read. -/
def scanValues (floats : FloatText) : Nat → List Value → Str → Except Error (Value × Str)
  | 0, _, _ => .error .decode
  | fuel + 1, values, s => do
    let (value, s) ← scan floats fuel s
    if (skip s).head? = some (ord ']') then return (.seq (values ++ [value]), (skip s).tail)
    else
      let s ← expect ',' (skip s)
      scanValues floats fuel (values ++ [value]) (skip s)

/-- `JSONObject`, after the items that have been read; a name that occurs again gets the new
value. -/
def scanItems (floats : FloatText) : Nat → Dict → Str → Except Error (Value × Str)
  | 0, _, _ => .error .decode
  | fuel + 1, items, s => do
    let s ← expect '"' s
    let (name, s) ← scanString s
    let s ← expect ':' (skip s)
    let (value, s) ← scan floats fuel (skip s)
    if (skip s).head? = some (ord '\x7d') then
      return (.dict (items.set (.str name) value), (skip s).tail)
    else
      let s ← expect ',' (skip s)
      scanItems floats fuel (items.set (.str name) value) (skip s)

end

/-- `json.loads(s)` of a string; every character takes at most two calls. -/
def loads (floats : FloatText) (s : Str) : Except Error Value := do
  let (value, rest) ← scan floats (2 * s.length + 1) (skip s)
  if skip rest = [] then return value else .error .decode

end Json

end Python
