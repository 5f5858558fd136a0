import LogSplit.File.Path
import LogSplit.Text.Quoted

/-!
# Settings of a run

Everything one split needs to know besides the predicate.
-/

set_option autoImplicit false

namespace LogSplit

/-- Where to read, where to write, and how strict to be. -/
structure Settings where
  /-- The log that is read. -/
  input : Path
  /-- The directory that receives the segment files. -/
  outputDir : Path
  /-- The stem of the segment files. -/
  stem : String
  /-- Whether a predicate without conditions is an error. -/
  strict : Bool
  /-- Whether segment files of earlier runs are removed first. -/
  clean : Bool
  deriving DecidableEq, Repr

namespace Settings

/-- The stem when none is given. -/
def defaultStem : String := "flight"

/-- The directory when none is given. -/
def defaultOutputDir : String := "logs"

/-- The settings as a log line shows them. -/
def describe (s : Settings) : String :=
  "RunConfig \x7b input: " ++ Text.quotedBytes s.input.bytes
    ++ ", output_dir: " ++ Text.quotedBytes s.outputDir.bytes
    ++ ", prefix: " ++ Text.quoted s.stem
    ++ ", strict: " ++ toString s.strict
    ++ ", clean: " ++ toString s.clean ++ " \x7d"

end Settings

end LogSplit
