import Zynax.Golang.Map

namespace Zynax.Golang

/-!
# Go's `encoding/json`

JSON documents as `encoding/json` writes and reads them, on texts given as lists of code
points.

* `Json.valid` — `json.Valid`, which also bounds the nesting by `maxNestingDepth`.
-/

inductive Json where
  | null
  | bool (b : Bool)
  | num (lexeme : List Char)
  | str (s : String)
  | arr (elems : List Json)
  | obj (fields : List (String × Json))

namespace Json

mutual

def decEq : (a b : Json) → Decidable (a = b)
  | .null, .null => isTrue rfl
  | .bool a, .bool b => decidable_of_iff (a = b) (by simp)
  | .num a, .num b => decidable_of_iff (a = b) (by simp)
  | .str a, .str b => decidable_of_iff (a = b) (by simp)
  | .arr a, .arr b =>
    match decEqElems a b with
    | isTrue h => isTrue (congrArg Json.arr h)
    | isFalse h => isFalse (fun hc => h (Json.arr.inj hc))
  | .obj a, .obj b =>
    match decEqFields a b with
    | isTrue h => isTrue (congrArg Json.obj h)
    | isFalse h => isFalse (fun hc => h (Json.obj.inj hc))
  | .null, .bool _ | .null, .num _ | .null, .str _ | .null, .arr _ | .null, .obj _
  | .bool _, .null | .bool _, .num _ | .bool _, .str _ | .bool _, .arr _ | .bool _, .obj _
  | .num _, .null | .num _, .bool _ | .num _, .str _ | .num _, .arr _ | .num _, .obj _
  | .str _, .null | .str _, .bool _ | .str _, .num _ | .str _, .arr _ | .str _, .obj _
  | .arr _, .null | .arr _, .bool _ | .arr _, .num _ | .arr _, .str _ | .arr _, .obj _
  | .obj _, .null | .obj _, .bool _ | .obj _, .num _ | .obj _, .str _ | .obj _, .arr _ =>
    isFalse (fun h => by cases h)

def decEqElems : (a b : List Json) → Decidable (a = b)
  | [], [] => isTrue rfl
  | [], _ :: _ => isFalse (fun h => by cases h)
  | _ :: _, [] => isFalse (fun h => by cases h)
  | x :: xs, y :: ys =>
    match decEq x y, decEqElems xs ys with
    | isTrue h, isTrue hs => isTrue (h ▸ hs ▸ rfl)
    | isFalse h, _ => isFalse (fun hc => h (List.cons.inj hc).1)
    | _, isFalse hs => isFalse (fun hc => hs (List.cons.inj hc).2)

def decEqFields : (a b : List (String × Json)) → Decidable (a = b)
  | [], [] => isTrue rfl
  | [], _ :: _ => isFalse (fun h => by cases h)
  | _ :: _, [] => isFalse (fun h => by cases h)
  | (k, x) :: xs, (l, y) :: ys =>
    if hk : k = l then
      match decEq x y, decEqFields xs ys with
      | isTrue h, isTrue hs => isTrue (hk ▸ h ▸ hs ▸ rfl)
      | isFalse h, _ => isFalse (fun hc => h (Prod.mk.inj (List.cons.inj hc).1).2)
      | _, isFalse hs => isFalse (fun hc => hs (List.cons.inj hc).2)
    else isFalse (fun hc => hk (Prod.mk.inj (List.cons.inj hc).1).1)

end

instance : DecidableEq Json := decEq

/-! ### Numbers -/

inductive NumState where
  | start | neg | zero | int | dot | frac | exp | expSign | expDigits

def isDigit19 (c : Char) : Bool := '1' ≤ c && c ≤ '9'

def NumState.step : NumState → Char → Option NumState
  | .start, c =>
    if c = '-' then some .neg else if c = '0' then some .zero
    else if isDigit19 c then some .int else none
  | .neg, c => if c = '0' then some .zero else if isDigit19 c then some .int else none
  | .zero, c => if c = '.' then some .dot else if c = 'e' ∨ c = 'E' then some .exp else none
  | .int, c =>
    if c.isDigit then some .int else if c = '.' then some .dot
    else if c = 'e' ∨ c = 'E' then some .exp else none
  | .dot, c => if c.isDigit then some .frac else none
  | .frac, c => if c.isDigit then some .frac else if c = 'e' ∨ c = 'E' then some .exp else none
  | .exp, c =>
    if c = '+' ∨ c = '-' then some .expSign else if c.isDigit then some .expDigits else none
  | .expSign, c => if c.isDigit then some .expDigits else none
  | .expDigits, c => if c.isDigit then some .expDigits else none

def NumState.accepting : NumState → Bool
  | .zero | .int | .frac | .expDigits => true
  | .start | .neg | .dot | .exp | .expSign => false

def isNumberFrom : NumState → List Char → Bool
  | q, [] => q.accepting
  | q, c :: cs =>
    match q.step c with
    | some q' => isNumberFrom q' cs
    | none => false

def isNumber (l : List Char) : Bool := isNumberFrom .start l

def isNumChar (c : Char) : Bool := c.isDigit || c ∈ ['+', '-', '.', 'e', 'E']

def parseNumber (s : List Char) : Option (Json × List Char) :=
  let run := s.takeWhile isNumChar
  if isNumber run then some (.num run, s.dropWhile isNumChar) else none

/-! ### Strings -/

def hexDigit (n : Nat) : Char :=
  if n < 10 then Char.ofNat (48 + n) else Char.ofNat (87 + n)

def hexVal (c : Char) : Option Nat :=
  if '0' ≤ c && c ≤ '9' then some (c.toNat - 48)
  else if 'a' ≤ c && c ≤ 'f' then some (c.toNat - 87)
  else if 'A' ≤ c && c ≤ 'F' then some (c.toNat - 55)
  else none

def unicodeEscape (n : Nat) : List Char :=
  ['\\', 'u', hexDigit (n / 4096 % 16), hexDigit (n / 256 % 16), hexDigit (n / 16 % 16),
    hexDigit (n % 16)]

def needsUnicodeEscape (c : Char) : Bool :=
  c < ' ' || c ∈ ['<', '>', '&', '\u2028', '\u2029']

def escapeChar (c : Char) : List Char :=
  if c = '"' then ['\\', '"']
  else if c = '\\' then ['\\', '\\']
  else if c = '\x08' then ['\\', 'b']
  else if c = '\x0c' then ['\\', 'f']
  else if c = '\n' then ['\\', 'n']
  else if c = '\r' then ['\\', 'r']
  else if c = '\t' then ['\\', 't']
  else if needsUnicodeEscape c then unicodeEscape c.toNat
  else [c]

def escapeBody (s : String) : List Char := s.toList.flatMap escapeChar

def quote (s : String) : List Char := '"' :: (escapeBody s ++ ['"'])

inductive StrUnit where
  | lit (c : Char)
  | code (n : Nat)

inductive StrState where
  | text
  | escape
  | hex (left acc : Nat)

def simpleEscape (e : Char) : Option Char :=
  if e = '"' ∨ e = '\\' ∨ e = '/' then some e
  else if e = 'b' then some '\x08'
  else if e = 'f' then some '\x0c'
  else if e = 'n' then some '\n'
  else if e = 'r' then some '\r'
  else if e = 't' then some '\t'
  else none

def scanStr : StrState → List Char → Option (List StrUnit × List Char)
  | _, [] => none
  | .text, c :: r =>
    if c = '"' then some ([], r)
    else if c = '\\' then scanStr .escape r
    else if c < ' ' then none
    else (scanStr .text r).map (fun p => (.lit c :: p.1, p.2))
  | .escape, c :: r =>
    if c = 'u' then scanStr (.hex 3 0) r
    else match simpleEscape c with
      | some ch => (scanStr .text r).map (fun p => (.lit ch :: p.1, p.2))
      | none => none
  | .hex left acc, c :: r =>
    match hexVal c, left with
    | none, _ => none
    | some d, 0 => (scanStr .text r).map (fun p => (.code (acc * 16 + d) :: p.1, p.2))
    | some d, left + 1 => scanStr (.hex left (acc * 16 + d)) r

def decodeSurrogates (hi lo : Nat) : Option Char :=
  if 0xd800 ≤ hi ∧ hi < 0xdc00 ∧ 0xdc00 ≤ lo ∧ lo < 0xe000 then
    some (Char.ofNat (0x10000 + (hi - 0xd800) * 0x400 + (lo - 0xdc00)))
  else none

def charOfCode (n : Nat) : Char :=
  if 0xd800 ≤ n ∧ n < 0xe000 then '\ufffd' else Char.ofNat n

def joinUnits : Option Nat → List StrUnit → List Char
  | none, [] => []
  | some hi, [] => [charOfCode hi]
  | none, .lit c :: us => c :: joinUnits none us
  | some hi, .lit c :: us => charOfCode hi :: c :: joinUnits none us
  | none, .code n :: us => joinUnits (some n) us
  | some hi, .code lo :: us =>
    match decodeSurrogates hi lo with
    | some ch => ch :: joinUnits none us
    | none => charOfCode hi :: joinUnits (some lo) us

def parseStr (s : List Char) : Option (String × List Char) :=
  (scanStr .text s).map (fun p => (String.ofList (joinUnits none p.1), p.2))

/-! ### Documents -/

mutual

def encode : Json → List Char
  | .null => ['n', 'u', 'l', 'l']
  | .bool true => ['t', 'r', 'u', 'e']
  | .bool false => ['f', 'a', 'l', 's', 'e']
  | .num l => l
  | .str s => quote s
  | .arr [] => ['[', ']']
  | .arr (x :: xs) => '[' :: (encode x ++ encodeElems xs)
  | .obj [] => ['{', '}']
  | .obj ((k, v) :: fs) => '{' :: (quote k ++ ':' :: (encode v ++ encodeFields fs))

def encodeElems : List Json → List Char
  | [] => [']']
  | x :: xs => ',' :: (encode x ++ encodeElems xs)

def encodeFields : List (String × Json) → List Char
  | [] => ['}']
  | (k, v) :: fs => ',' :: (quote k ++ ':' :: (encode v ++ encodeFields fs))

end

def isWs (c : Char) : Bool := c = ' ' || c = '\t' || c = '\r' || c = '\n'

def skipWs (s : List Char) : List Char := s.dropWhile isWs

def parseKey : List Char → Option (String × List Char)
  | [] => none
  | c :: r =>
    if c = '"' then
      match parseStr r with
      | none => none
      | some (k, r') =>
        match skipWs r' with
        | [] => none
        | c' :: r'' => if c' = ':' then some (k, r'') else none
    else none

def parseWord (w : List Char) (v : Json) (s : List Char) : Option (Json × List Char) :=
  if w.isPrefixOf s then some (v, s.drop w.length) else none

mutual

def parseValue : Nat → List Char → Option (Json × List Char)
  | 0, _ => none
  | _ + 1, [] => none
  | fuel + 1, c :: r =>
    if c = '"' then (parseStr r).map (fun p => (.str p.1, p.2))
    else if c = '[' then
      match skipWs r with
      | [] => none
      | c' :: r' =>
        if c' = ']' then some (.arr [], r')
        else (parseElems fuel (c' :: r')).map (fun p => (.arr p.1, p.2))
    else if c = '{' then
      match skipWs r with
      | [] => none
      | c' :: r' =>
        if c' = '}' then some (.obj [], r')
        else (parseFields fuel (c' :: r')).map (fun p => (.obj p.1, p.2))
    else if c = 'n' then parseWord ['n', 'u', 'l', 'l'] .null (c :: r)
    else if c = 't' then parseWord ['t', 'r', 'u', 'e'] (.bool true) (c :: r)
    else if c = 'f' then parseWord ['f', 'a', 'l', 's', 'e'] (.bool false) (c :: r)
    else parseNumber (c :: r)

def parseElems : Nat → List Char → Option (List Json × List Char)
  | 0, _ => none
  | fuel + 1, s =>
    match parseValue fuel s with
    | none => none
    | some (v, r) =>
      match skipWs r with
      | [] => none
      | c :: r' =>
        if c = ',' then (parseElems fuel (skipWs r')).map (fun p => (v :: p.1, p.2))
        else if c = ']' then some ([v], r')
        else none

def parseFields : Nat → List Char → Option (List (String × Json) × List Char)
  | 0, _ => none
  | fuel + 1, s =>
    match parseKey s with
    | none => none
    | some (k, r) =>
      match parseValue fuel (skipWs r) with
      | none => none
      | some (v, r') =>
        match skipWs r' with
        | [] => none
        | c :: t =>
          if c = ',' then (parseFields fuel (skipWs t)).map (fun p => ((k, v) :: p.1, p.2))
          else if c = '}' then some ([(k, v)], t)
          else none

end

def parseText (s : List Char) : Option Json :=
  match parseValue (2 * s.length + 2) (skipWs s) with
  | some (v, r) => if skipWs r = [] then some v else none
  | none => none

mutual

def depth : Json → Nat
  | .arr xs => depthElems xs + 1
  | .obj fs => depthFields fs + 1
  | _ => 0

def depthElems : List Json → Nat
  | [] => 0
  | x :: xs => max (depth x) (depthElems xs)

def depthFields : List (String × Json) → Nat
  | [] => 0
  | (_, v) :: fs => max (depth v) (depthFields fs)

end

def maxNestingDepth : Nat := 10000

def unmarshal (s : String) : Option Json :=
  match parseText s.toList with
  | some v => if v.depth ≤ maxNestingDepth then some v else none
  | none => none

def valid (s : String) : Bool := (unmarshal s).isSome

def marshal (v : Json) : String := String.ofList v.encode

def toFields : Json → Option (GoMap Json)
  | .obj fs => some (GoMap.ofPairs fs)
  | .null => some ∅
  | _ => none

def decodeObject (s : String) : Option (GoMap Json) := (unmarshal s).bind toFields

def sortedMembers (m : GoMap Json) : List (String × Json) :=
  (m.entries.map (fun e => (e.1, e.2))).insertionSort (fun a b => a.1 ≤ b.1)

def ofMap (m : GoMap Json) : Json := .obj (sortedMembers m)

end Json

end Zynax.Golang
