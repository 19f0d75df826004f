import AddonAtlas.Digest.Sha256
import AddonAtlas.Files.Tree

/-!
One digest for a set of files.

Every path gives a line with the digest of its content and the path as seen from a base
directory; the digest of all lines changes with any name, any content and any missing file.
-/

namespace AddonAtlas.Digest

/-- The line of one path. A file that cannot be read has a dash for its digest. -/
def fileLine (t : FileTree) (base p : Path) : String :=
  let digest := match t.readBytes? p with
    | some c => sha256 c
    | none => "-"
  let shown := ((p.below? base).getD p).text
  digest ++ " " ++ String.ofList (shown.toList.map fun c => if c = '\\' then '/' else c)

/-- The digest of a set of files, as seen from a base directory. Of several spellings of a path the
last one counts. -/
def fileSet (t : FileTree) (base : Path) (paths : List Path) : String :=
  let once : PathSet := OrdMap.ofList (paths.map fun p => (p.key, p))
  let lines := once.paths.map (fileLine t base)
  sha256 ("\n".intercalate lines).toUTF8

end AddonAtlas.Digest
