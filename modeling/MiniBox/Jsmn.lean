import MiniBox.ByteStream

namespace MiniBox.Jsmn

inductive TokenType
  | object | array | string | primitive
  deriving DecidableEq, Repr

structure Token where
  type : TokenType
  start : ℕ
  stop : Option ℕ
  deriving DecidableEq, Repr

def Token.isOpen (t : Token) : Bool := t.stop.isNone

def Token.text (buf : List UInt8) (t : Token) : List UInt8 := (buf.drop t.start).take (t.stop.getD 0 - t.start)

inductive Failure
  | nomem | inval | part
  deriving DecidableEq, Repr

def chr (c : Char) : UInt8 := c.toUInt8

def quote : UInt8 := 0x22
def backslash : UInt8 := 0x5c

def isSpace (c : UInt8) : Bool := c = chr '\t' || c = chr '\r' || c = chr '\n' || c = chr ' '

def openType (c : UInt8) : Option TokenType :=
  if c = chr '{' then some .object else if c = chr '[' then some .array else none

def closeType (c : UInt8) : Option TokenType :=
  if c = chr '}' then some .object else if c = chr ']' then some .array else none

def endsPrimitive (c : UInt8) : Bool := c = chr ':' || isSpace c || c = chr ',' || c = chr ']' || c = chr '}'

def scanPrimitive (pos : ℕ) : List UInt8 → Option (ℕ × List UInt8)
  | [] => some (pos, [])
  | c :: cs =>
    if c = 0 then some (pos, c :: cs)
    else if endsPrimitive c then some (pos, c :: cs)
    else if c < 32 || 127 ≤ c then none
    else scanPrimitive (pos + 1) cs

inductive StringScan
  | closed (stop : ℕ) (rest : List UInt8)
  | inval
  | part

def isEscape (c : UInt8) : Bool := c ∈ [quote, chr '/', backslash, chr 'b', chr 'f', chr 'r', chr 'n', chr 't']

def isHex (c : UInt8) : Bool := (48 ≤ c && c ≤ 57) || (65 ≤ c && c ≤ 70) || (97 ≤ c && c ≤ 102)

/-- The loop of `jsmn_parse_string`, with the number of hexadecimal digits that an escape still
has to come: the end of the string and the bytes behind the closing quote. -/
def scanString (pos : ℕ) : ℕ → List UInt8 → StringScan
  | _, [] => .part
  | 0, c :: cs =>
    if c = 0 then .part
    else if c = quote then .closed pos cs
    else if c = backslash then
      match cs with
      | [] => .part
      | d :: ds =>
        if isEscape d then scanString (pos + 2) 0 ds
        else if d = chr 'u' then scanString (pos + 2) 4 ds
        else .inval
    else scanString (pos + 1) 0 cs
  | k + 1, c :: cs =>
    if c = 0 then .part
    else if isHex c then scanString (pos + 1) k cs
    else .inval

def closeLast (type : TokenType) (stop : ℕ) : List Token → Option (List Token)
  | [] => none
  | t :: ts =>
    if ts.any Token.isOpen then (closeLast type stop ts).map (t :: ·)
    else if t.isOpen then (if t.type = type then some ({ t with stop := some stop } :: ts) else none)
    else none

def finish (toks : List Token) : Except Failure (List Token) :=
  if toks.any Token.isOpen then .error .part else .ok toks

def alloc (num : ℕ) (toks : List Token) (t : Token) : Except Failure (List Token) :=
  if num ≤ toks.length then .error .nomem else .ok (toks ++ [t])

/-- The loop of `jsmn_parse`. Every turn takes at least one byte. -/
def parseLoop (num : ℕ) : ℕ → ℕ → List UInt8 → List Token → Except Failure (List Token)
  | 0, _, _, toks => finish toks
  | _ + 1, _, [], toks => finish toks
  | n + 1, pos, c :: cs, toks =>
    if c = 0 then finish toks
    else match openType c with
    | some type => do
      let toks ← alloc num toks ⟨type, pos, none⟩
      parseLoop num n (pos + 1) cs toks
    | none => match closeType c with
      | some type =>
        match closeLast type (pos + 1) toks with
        | none => .error .inval
        | some toks => parseLoop num n (pos + 1) cs toks
      | none =>
        if c = quote then
          match scanString (pos + 1) 0 cs with
          | .closed stop rest => do
            let toks ← alloc num toks ⟨.string, pos + 1, some stop⟩
            parseLoop num n (stop + 1) rest toks
          | .inval => .error .inval
          | .part => .error .part
        else if isSpace c || c = chr ':' || c = chr ',' then parseLoop num n (pos + 1) cs toks
        else match scanPrimitive pos (c :: cs) with
          | none => .error .inval
          | some (stop, rest) => do
            let toks ← alloc num toks ⟨.primitive, pos, some stop⟩
            parseLoop num n stop rest toks

def parse (js : List UInt8) (num : ℕ) : Except Failure (List Token) := parseLoop num (js.length + 1) 0 js []

end MiniBox.Jsmn
