import AddonAtlas.Toml.Scalar
import AddonAtlas.Toml.Table

/-!
TOML text as a value: an object with the fields of the top table.
-/

namespace AddonAtlas.Toml

open AddonAtlas.Text

/-- A step that reads on in a text or gives up. -/
abbrev Reading := StateT (List Char) Option

namespace Reading

def peek : Reading (Option Char) := return (← get).head?

def startsWith (s : String) : Reading Bool := return s.toList.isPrefixOf (← get)

def skip (n : Nat) : Reading Unit := modify fun cs => cs.drop n

def literal (s : String) : Reading Unit := do
  if ← startsWith s then skip s.length else failure

def takeWhile (f : Char → Bool) : Reading (List Char) := do
  let cs := (← get).takeWhile f
  skip cs.length
  pure cs

def blanks : Reading Unit := modify fun cs => cs.dropWhile fun c => c == ' ' || c == '\t'

/-- Characters that may stand in comments and strings; control characters other than the tab may
not. -/
def isPlain (c : Char) : Bool := c == '\t' || (32 ≤ c.toNat && c.toNat ≠ 127)

/-- Whether a line end stands here. -/
def atNewline : Reading Bool := return (← startsWith "\n") || (← startsWith "\r\n")

def newline : Reading Unit := do
  if ← startsWith "\r\n" then skip 2 else literal "\n"

def comment : Reading Unit := do
  if ← startsWith "#" then
    let _ ← takeWhile isPlain
    if !((← get).isEmpty || (← atNewline)) then failure

/-- The end of a line: blanks and perhaps a comment before it. -/
def lineEnd : Reading Unit := do
  blanks
  comment
  if !(← get).isEmpty then newline

/-- Blanks, comments and line ends between the parts of a list or table. -/
def filler : Nat → Reading Unit
  | 0 => failure
  | n + 1 => do
    blanks
    comment
    if ← atNewline then
      newline
      filler n

/-- The character of a code point with a fixed count of hexadecimal digits. -/
def codePoint (count : Nat) : Reading Char := do
  let ds := (← get).take count
  skip count
  let n := ofDigits 16 ds
  if ds.length = count && ds.all isHexDigit && (n < 0xD800 || (0xDFFF < n && n < 0x110000)) then
    pure (Char.ofNat n)
  else failure

/-- An escape behind its backslash. -/
def escape : Reading Char := do
  match ← get with
  | [] => failure
  | c :: r =>
    set r
    match c with
    | 'b' => pure '\x08'
    | 't' => pure '\t'
    | 'n' => pure '\n'
    | 'f' => pure '\x0c'
    | 'r' => pure '\r'
    | 'e' => pure '\x1b'
    | '"' => pure '"'
    | '\\' => pure '\\'
    | 'x' => codePoint 2
    | 'u' => codePoint 4
    | 'U' => codePoint 8
    | _ => failure

/-- The rest of a string on one line, and its closing quote. -/
def lineString (quote : Char) (escapes : Bool) : Nat → List Char → Reading String
  | 0, _ => failure
  | n + 1, acc => do
    match ← get with
    | [] => failure
    | c :: r =>
      set r
      if c = quote then pure (String.ofList acc.reverse)
      else if c = '\\' && escapes then
        let d ← escape
        lineString quote escapes n (d :: acc)
      else if isPlain c then lineString quote escapes n (c :: acc)
      else failure

def isFill (c : Char) : Bool := c == ' ' || c == '\t' || c == '\n' || c == '\r'

/-- The rest of a string over several lines, and its closing quotes; two more quotes may stand
before them. -/
def blockString (quote : Char) (escapes : Bool) : Nat → List Char → Reading String
  | 0, _ => failure
  | n + 1, acc => do
    let cs ← get
    let run := (cs.takeWhile (· == quote)).length
    if 3 ≤ run then
      skip (min run 5)
      pure (String.ofList (acc.reverse ++ List.replicate (min run 5 - 3) quote))
    else match cs with
      | [] => failure
      | '\r' :: '\n' :: r =>
        set r
        blockString quote escapes n ('\n' :: acc)
      | c :: r =>
        set r
        if c = '\\' && escapes then
          let gap := r.takeWhile isFill
          let margin := r.dropWhile fun c => c == ' ' || c == '\t'
          if ['\n'].isPrefixOf margin || ['\r', '\n'].isPrefixOf margin then
            set (r.drop gap.length)
            blockString quote escapes n acc
          else
            let d ← escape
            blockString quote escapes n (d :: acc)
        else if isPlain c || c = '\n' then blockString quote escapes n (c :: acc)
        else failure

/-- A string of any kind. -/
def string : Reading String := do
  let fuel := (← get).length + 1
  let block (mark : String) (q : Char) (escapes : Bool) : Reading String := do
    literal mark
    if ← atNewline then newline
    blockString q escapes fuel []
  if ← startsWith "\"\"\"" then block "\"\"\"" '"' true
  else if ← startsWith "'''" then block "'''" '\'' false
  else if ← startsWith "\"" then do literal "\""; lineString '"' true fuel []
  else do literal "'"; lineString '\'' false fuel []

def isBare (c : Char) : Bool := c.isAlphanum || c == '_' || c == '-'

/-- One part of a key. -/
def keyPart : Reading String := do
  let fuel := (← get).length + 1
  match ← peek with
  | some '"' => do literal "\""; lineString '"' true fuel []
  | some '\'' => do literal "'"; lineString '\'' false fuel []
  | _ => do
    let cs ← takeWhile isBare
    if cs.isEmpty then failure else pure (String.ofList cs)

/-- A key with its parts between dots, and the blanks behind it. -/
def key : Nat → Reading (List String)
  | 0 => failure
  | n + 1 => do
    blanks
    let k ← keyPart
    blanks
    if ← startsWith "." then
      skip 1
      let rest ← key n
      pure (k :: rest)
    else pure [k]

/-- The text of a bare scalar; one blank may stand between a date and a time. -/
def scalarText : Reading (List Char) := do
  let first ← takeWhile isScalarChar
  let cs ← get
  if date? first == some [] && cs.head? == some ' ' && (clock? (cs.drop 1)).isSome then
    skip 1
    let second ← takeWhile isScalarChar
    pure (first ++ ' ' :: second)
  else pure first

mutual

/-- A value of any kind. -/
def value : Nat → Reading Value
  | 0 => failure
  | n + 1 => do
    match ← peek with
    | some '"' => return .text (← string)
    | some '\'' => return .text (← string)
    | some '[' => do
      skip 1
      return .list (← items n [])
    | some '\x7b' => do
      skip 1
      match Fields.addAll [] (← entries n []) with
      | some fs => pure (.object (fieldsValue fs))
      | none => failure
    | _ => match scalar? (← scalarText) with
      | some v => pure v
      | none => failure

/-- The items of a list and its closing bracket. -/
def items : Nat → List Value → Reading (List Value)
  | 0, _ => failure
  | n + 1, acc => do
    filler (n + 1)
    if ← startsWith "]" then
      skip 1
      pure acc.reverse
    else
      let v ← value n
      filler (n + 1)
      if ← startsWith "," then
        skip 1
        items n (v :: acc)
      else
        literal "]"
        pure (v :: acc).reverse

/-- The entries of a table in braces and its closing brace. -/
def entries : Nat → List (List String × Value) → Reading (List (List String × Value))
  | 0, _ => failure
  | n + 1, acc => do
    filler (n + 1)
    if ← startsWith "\x7d" then
      skip 1
      pure acc.reverse
    else
      let k ← key n
      literal "="
      blanks
      let v ← value n
      filler (n + 1)
      if ← startsWith "," then
        skip 1
        entries n ((k, v) :: acc)
      else
        literal "\x7d"
        pure ((k, v) :: acc).reverse

end

/-- Lines with keys and values up to the next heading or the end. -/
def body : Nat → List (List String × Value) → Reading (List (List String × Value))
  | 0, _ => failure
  | n + 1, acc => do
    filler (n + 1)
    if (← get).isEmpty || (← startsWith "[") then pure acc.reverse
    else
      let k ← key n
      literal "="
      blanks
      let v ← value n
      lineEnd
      body n ((k, v) :: acc)

/-- The headings with what stands below them. -/
def sections : Nat → Fields → Reading Fields
  | 0, _ => failure
  | n + 1, fs => do
    if (← get).isEmpty then pure fs
    else
      let several ← startsWith "[["
      literal (if several then "[[" else "[")
      let k ← key n
      literal (if several then "]]" else "]")
      lineEnd
      let l ← body n []
      match if several then fs.openNext k l else fs.openTable k l with
      | some fs => sections n fs
      | none => failure

def document : Reading Fields := do
  let n := (← get).length + 2
  let l ← body n []
  match Fields.addAll [] l with
  | some fs => sections n fs
  | none => failure

end Reading

/-- The value of a text; none if the text is malformed. A byte order mark is passed over. -/
def read? (text : String) : Option Value :=
  let cs := match text.toList with
    | '\ufeff' :: r => r
    | cs => cs
  (Reading.document cs).map fun r => .object (fieldsValue r.1)

end AddonAtlas.Toml
