import AddonAtlas.Text.Position
import AddonAtlas.Markup.Document
import AddonAtlas.Markup.Reference

/-!
Reading markup: well-formed documents with namespaces and without a document type.
-/

namespace AddonAtlas.Markup

open AddonAtlas.Text

/-- A step that reads on from a place or gives up. -/
abbrev Reading := StateT Position Option

namespace Reading

def skipSpaces : Reading Unit := modify fun p => p.skipWhile isSpace

def startsWith (s : String) : Reading Bool := return s.toList.isPrefixOf (← get).rest

/-- Take a given text. -/
def literal (s : String) : Reading Unit := do
  if ← startsWith s then modify fun p => p.advance s.length else failure

/-- Take characters while they pass a test. -/
def takeWhile (f : Char → Bool) : Reading (List Char) := do
  let p ← get
  let cs := p.rest.takeWhile f
  set (p.advance cs.length)
  pure cs

/-- The text before the first occurrence of a mark. -/
def before? (mark : List Char) : List Char → List Char → Option (List Char)
  | acc, [] => if mark.isEmpty then some acc.reverse else none
  | acc, c :: r =>
    if mark.isPrefixOf (c :: r) then some acc.reverse else before? mark (c :: acc) r

/-- Take text up to a mark, and the mark. -/
def upTo (mark : String) : Reading (List Char) := do
  let p ← get
  match before? mark.toList [] p.rest with
  | none => failure
  | some cs =>
    if cs.all isChar then
      set (p.advance (cs.length + mark.length))
      pure cs
    else failure

def isNameText (cs : List Char) : Bool :=
  match cs with
  | c :: _ => isNameStart c
  | [] => false

/-- A name with an optional prefix before a colon. -/
def qualifiedName : Reading (String × String) := do
  let a ← takeWhile isNameChar
  if (← get).peek == some ':' then
    modify fun p => p.advance 1
    let b ← takeWhile isNameChar
    if (← get).peek == some ':' then failure
    if (a.isEmpty || isNameText a) && isNameText b then
      pure (String.ofList a, String.ofList b)
    else failure
  else if isNameText a then pure ("", String.ofList a)
  else failure

/-- An attribute as written: the prefix and the name, and the resolved value. -/
def attributePair : Reading ((String × String) × String) := do
  let n ← qualifiedName
  skipSpaces
  literal "="
  skipSpaces
  let p ← get
  match p.peek with
  | some q =>
    if q = '"' || q = '\'' then
      set (p.advance 1)
      let cs ← takeWhile fun c => c ≠ q && c ≠ '<'
      literal (String.singleton q)
      if cs.all isChar then
        match attributeText? (cs.length + 1) cs with
        | some v => pure (n, String.ofList v)
        | none => failure
      else failure
    else failure
  | none => failure

/-- A comment, which holds no two dashes and ends with none. -/
def comment : Reading Unit := do
  literal "<!--"
  let cs ← upTo "-->"
  if (before? ['-', '-'] [] cs).isSome || cs.getLast? == some '-' then failure

/-- A processing instruction. -/
def instruction : Reading Unit := do
  if ← startsWith "<?xml " then failure
  literal "<?"
  let n ← takeWhile fun c => isNameChar c || c == ':'
  match n with
  | c :: _ => if !(isNameStart c || c == ':') then failure
  | [] => failure
  skipSpaces
  let _ ← upTo "?>"

/-- Blank space, comments and instructions around the root. -/
def misc : Nat → Reading Unit
  | 0 => failure
  | n + 1 => do
    skipSpaces
    if ← startsWith "<!--" then do comment; misc n
    else if ← startsWith "<?" then do instruction; misc n
    else pure ()

/-- The declaration at the beginning of a document. -/
def declaration : Reading Unit := do
  let gap : Reading Unit := do
    let p ← get
    match p.peek with
    | some c => if isSpace c then skipSpaces else if !(← startsWith "?>") then failure
    | none => pure ()
  literal "<?xml"
  gap
  if !(← startsWith "version") then failure
  let _ ← attributePair
  gap
  if ← startsWith "encoding" then
    let _ ← attributePair
    gap
  if ← startsWith "standalone" then
    let _ ← attributePair
  skipSpaces
  literal "?>"

end Reading

/-- The namespaces in scope, innermost first. The empty prefix is the default. -/
abbrev Scope := List (String × String)

def xmlUri : String := "http://www.w3.org/XML/1998/namespace"

def xmlnsUri : String := "http://www.w3.org/2000/xmlns/"

/-- The namespace that an attribute declares, if it is allowed to; none for the fixed one. -/
def declared? : ((String × String) × String) → Option (Option (String × String))
  | ((p, n), v) =>
    if v = xmlnsUri then none
    else if p = "xmlns" then
      if n = "xml" then (if v = xmlUri then some none else none)
      else if v = xmlUri then none
      else some (some (n, v))
    else if v = xmlUri then none
    else some (some ("", v))

/-- An attribute declares a namespace if either part of its name says so. -/
def declares (a : (String × String) × String) : Bool :=
  a.1.1 == "xmlns" || a.1.2 == "xmlns"

/-- The scope inside an element, and its attributes with their namespaces; none if a prefix is
unknown, or declared twice, or if two attributes are the same. The default may be declared again. -/
def resolve? (scope : Scope) (attributes : List ((String × String) × String)) :
    Option (Scope × List Attribute) := do
  let own ← (attributes.filter declares).mapM declared?
  let own := own.filterMap id
  guard ((own.map (·.1)).filter (· ≠ "")).Nodup
  let scope := own.reverse ++ scope
  let named ← (attributes.filter fun a => !declares a).mapM fun ((p, n), v) =>
    if p = "" then some ((none, n), v)
    else if p = "xml" then some ((some xmlUri, n), v)
    else (scope.lookup p).map fun u => ((some u, n), v)
  guard (named.map (·.1)).Nodup
  some (scope, named.map fun ((u, n), v) => ⟨u.isSome, n, v⟩)

namespace Reading

/-- The attributes of a tag, and whether the tag closes its element. -/
def attributes : Nat → List ((String × String) × String) →
    Reading (List ((String × String) × String) × Bool)
  | 0, _ => failure
  | n + 1, acc => do
    let spaced := (← get).peek.any isSpace
    skipSpaces
    if ← startsWith "/" then
      literal "/>"
      pure (acc.reverse, true)
    else if ← startsWith ">" then
      literal ">"
      pure (acc.reverse, false)
    else if spaced then
      let a ← attributePair
      attributes n (a :: acc)
    else failure

/-- Append text to the nodes read so far; adjacent texts are one. -/
def addText (acc : List Node) (s : String) : List Node :=
  if s.isEmpty then acc
  else match acc with
    | .text t :: r => .text (t ++ s) :: r
    | acc => .text s :: acc

mutual

/-- An element, at its opening bracket. -/
def element : Nat → Scope → Reading Node
  | 0, _ => failure
  | n + 1, scope => do
    let first := (← get).line
    literal "<"
    let name ← qualifiedName
    let (written, closed) ← attributes n []
    match resolve? scope written with
    | none => failure
    | some (scope, as) =>
      if name.1 = "xmlns" then failure
      if name.1 ≠ "" && name.1 ≠ "xml" && (scope.lookup name.1).isNone then failure
      let children ← if closed then pure [] else content n scope name []
      pure (.element ⟨name.2, as, first, (← get).line⟩ children)

/-- What stands between the tags of an element, and the closing tag. -/
def content : Nat → Scope → String × String → List Node → Reading (List Node)
  | 0, _, _, _ => failure
  | n + 1, scope, name, acc => do
    if ← startsWith "<!--" then
      comment
      content n scope name (.other :: acc)
    else if ← startsWith "<![CDATA[" then
      literal "<![CDATA["
      let cs ← upTo "]]>"
      content n scope name (addText acc (String.ofList (plainText cs)))
    else if ← startsWith "<!" then failure
    else if ← startsWith "<?" then
      instruction
      content n scope name (.other :: acc)
    else if ← startsWith "</" then
      literal "</"
      if (← qualifiedName) = name then
        skipSpaces
        literal ">"
        pure acc.reverse
      else failure
    else if ← startsWith "<" then
      let e ← element n scope
      content n scope name (e :: acc)
    else
      let cs ← takeWhile (· ≠ '<')
      if cs.isEmpty || !cs.all isChar || (before? [']', ']', '>'] [] cs).isSome then failure
      match contentText? (cs.length + 1) cs with
      | none => failure
      | some t => content n scope name (addText acc (String.ofList t))

end

/-- A whole document. -/
def document : Reading Node := do
  let n := (← get).rest.length + 2
  if ← startsWith "<?xml " then declaration
  misc n
  let root ← element n []
  misc n
  if (← get).rest.isEmpty then pure root else failure

end Reading

/-- The root element of a text; none if the text is not well-formed. A byte order mark is passed
over. -/
def read? (text : String) : Option Node :=
  let cs := match text.toList with
    | '\ufeff' :: r => r
    | cs => cs
  (Reading.document (.start cs)).map (·.1)

end AddonAtlas.Markup
