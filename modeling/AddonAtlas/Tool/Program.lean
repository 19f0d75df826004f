import AddonAtlas.Tool.Error
import AddonAtlas.Tool.Substitution
import AddonAtlas.Files.Tree

/-!
External programs as functions of their arguments and of the files they see.
-/

namespace AddonAtlas.Tool

/-- What a finished program has done. -/
inductive Outcome
  | notFound
  | unrunnable
  /-- It ends after some time with a status and an output; a text that it edits in place has a new
  content. -/
  | ends (milliseconds : Nat) (status : Nat) (output : ByteArray) (edited : Option ByteArray)

def finished (status : Nat) (output : String) : Outcome := .ends 0 status output.toUTF8 none

/-- A time span in seconds, in milliseconds; a unit may follow it. -/
def seconds? (s : String) : Option Nat :=
  let cs := s.toList
  let whole := cs.takeWhile Char.isDigit
  let rest := cs.drop whole.length
  let (places, rest) := match rest with
    | '.' :: r => (r.takeWhile Char.isDigit, r.dropWhile Char.isDigit)
    | r => ([], r)
  if whole.isEmpty && places.isEmpty then none
  else
    let ms := String.ofList (whole ++ (places ++ ['0', '0', '0']).take 3)
    let unit := match rest with
      | [] | ['s'] => some 1
      | ['m'] => some 60
      | ['h'] => some 3600
      | ['d'] => some 86400
      | _ => none
    unit.bind fun u => ms.toNat?.map (· * u)

/-- The files that a program sees: the content at a path, and whether anything is there. -/
structure Sight where
  content : String → Option ByteArray
  exists? : String → Bool

/-- What running a program with some arguments does. -/
abbrev Toolbox := Sight → (program : String) → (args : List String) → Outcome

namespace Toolbox

/-- Without any programs. -/
def empty : Toolbox := fun _ _ _ => .notFound

/-- The common programs of a shell. Files in the tree cannot be run. -/
def common : Toolbox := fun sight program args =>
  if program.toList.contains '/' then
    (if sight.exists? program then .unrunnable else .notFound)
  else match program with
    | "true" => finished 0 ""
    | "false" => finished 1 ""
    | "echo" => match args with
      | "-n" :: r => finished 0 (" ".intercalate r)
      | r => finished 0 (" ".intercalate r ++ "\n")
    | "cat" =>
      let files := args.map sight.content
      let output := files.foldl (fun (b : ByteArray) f => b ++ f.getD .empty) .empty
      .ends 0 (if files.all Option.isSome then 0 else 1) output none
    | "sleep" =>
      let spans := args.map seconds?
      if args.isEmpty || spans.any Option.isNone then finished 1 ""
      else .ends (spans.foldl (fun n s => n + s.getD 0) 0) 0 .empty none
    | "sed" => match args with
      | "-i" :: script :: operands =>
        match Substitution.parseAll (script.length + 1) script.toList with
        | none => finished 1 ""
        | some ss => match operands.getLast? with
          | none => finished 4 ""
          | some target =>
            -- a missing file is reported, and the others are edited all the same
            let status := if operands.all fun p => (sight.content p).isSome then 0 else 2
            let text? := (sight.content target).bind String.fromUTF8?
            .ends 0 status .empty (text?.map fun text => (editText ss text).toUTF8)
      | _ => finished 1 ""
    | _ => .notFound

end Toolbox

/-- What stands in for bytes that are no text: each maximal piece of a broken character becomes one
replacement sign. -/
def lossyText (bytes : ByteArray) : String :=
  match String.fromUTF8? bytes with
  | some s => s
  | none => String.ofList (go (bytes.size + 1) bytes.toList)
where
  isTail (b : UInt8) : Bool := 0x80 ≤ b && b < 0xC0
  /-- How many bytes of a character stand at the front, and whether it is whole. -/
  piece : List UInt8 → Nat × Option Char
    | [] => (0, none)
    | a :: r =>
      if a < 0x80 then (1, some (Char.ofNat a.toNat))
      else
        let need := if 0xC2 ≤ a && a < 0xE0 then 1 else if 0xE0 ≤ a && a < 0xF0 then 2
          else if 0xF0 ≤ a && a < 0xF5 then 3 else 0
        let secondOk : Bool := match r with
          | b :: _ =>
            if a = 0xE0 then 0xA0 ≤ b && b < 0xC0
            else if a = 0xED then 0x80 ≤ b && b < 0xA0
            else if a = 0xF0 then 0x90 ≤ b && b < 0xC0
            else if a = 0xF4 then 0x80 ≤ b && b < 0x90
            else isTail b
          | [] => false
        if need = 0 || !secondOk then (1, none)
        else
          let tail := (r.take need).takeWhile isTail
          if tail.length < need then (1 + tail.length, none)
          else
            let lead := a.toNat % (if need = 1 then 32 else if need = 2 then 16 else 8)
            (1 + need, some (Char.ofNat (tail.foldl (fun n b => n * 64 + b.toNat % 64) lead)))
  go : Nat → List UInt8 → List Char
    | 0, _ => []
    | _ + 1, [] => []
    | n + 1, a :: r =>
      let (k, c) := piece (a :: r)
      c.getD '\ufffd' :: go n ((a :: r).drop k)

/-- Run a command line with a target as its last argument; gives its output as text, or why there is
none, and the content of the target if it was edited. -/
def run (box : Toolbox) (sight : Sight) (argv : List String) (timeout : Nat) (target : String) :
    Except ToolError String × Option ByteArray :=
  match argv with
  | [] => (.error .empty, none)
  | program :: args => match box sight program (args ++ [target]) with
    | .notFound => (.error (.notFound program), none)
    | .unrunnable => (.error (.unrunnable program), none)
    | .ends ms status output edited =>
      if timeout < ms then (.error (.timedOut program timeout), none)
      else if status = 0 then (.ok (lossyText output), edited)
      else (.error (.failed program status), edited)

/-- What programs see of a tree of files. -/
def sightOf (t : FileTree) : Sight := ⟨fun p => t.readBytes? ⟨p⟩, fun p => t.hasNode ⟨p⟩⟩

/-- Run a command line on a path of a tree of files. -/
def runOn (box : Toolbox) (t : FileTree) (argv : List String) (timeout : Nat) (target : String) :
    Except ToolError String :=
  (run box (sightOf t) argv timeout target).1

end AddonAtlas.Tool
