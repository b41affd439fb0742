/-!
# Scan options

Which files of a project are scanned, as far as the user can choose.
-/

namespace PackageGraph

/-- Which files of a project are scanned. -/
structure ScanOptions where
  /-- Are test files scanned too? -/
  includeTests : Bool
  /-- Names of directories that are not entered. -/
  skippedDirectories : List String
deriving DecidableEq

/-- Test files are left out, and so are directories of copied code and of test data. -/
def ScanOptions.default : ScanOptions := ⟨false, ["vendor", "testdata"]⟩

instance : Inhabited ScanOptions := ⟨.default⟩

end PackageGraph
