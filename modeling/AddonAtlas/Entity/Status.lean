/-!
Flags that a package collects while it is read.
-/

namespace AddonAtlas.Status

/-- A file that the manifest lists does not exist. -/
def missingFile : String := "missing-file"

/-- The package has more than one manifest. -/
def multipleManifest : String := "multiple-manifest"

/-- A source was read after conversion. -/
def converted : String := "ported"

/-- A source needed its indentation mended. -/
def indentFix : String := "indent-fix"

/-- A source could only be read as an older revision of the language. -/
def feature (major minor : Nat) : String :=
  "feature-" ++ toString major ++ "-" ++ toString minor

end AddonAtlas.Status
