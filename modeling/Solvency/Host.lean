import Solvency.Document.Nesting
import Solvency.Yaml.Reader

/-! What the program has from where it runs: a reader of YAML texts, and the stack that is left for
calls where a reader or a walk over a document begins. The reader depends on its place in the program
only by how deep a text it has stack for. -/
namespace Solvency

structure Host where
  /-- The reader of YAML texts, for the file of a configuration. A value that a text puts inside itself
  is given unfolded, deeper than there is room for. -/
  settings : List Char → Except Fault Document
  /-- The reader of YAML texts, for files of snapshots. -/
  yaml : List Char → Except Fault Document
  /-- How many collections of a JSON text may be inside one another. -/
  json : Nat
  /-- For the screen of the document of a file with a single account. -/
  alone : Room
  /-- For the screens of an account of many in a file, and of what they share. -/
  shared : Room
  /-- For the screen of a report. -/
  screening : Room
  /-- For the encoding of a report. -/
  encoding : Room

/-- A stack for a thousand calls, and the reader of the part of YAML that is mostly used. -/
def Host.usual : Host where
  settings := Yaml.read
  yaml := Yaml.read
  json := 992
  alone := ⟨995, by decide⟩
  shared := ⟨994, by decide⟩
  screening := ⟨996, by decide⟩
  encoding := ⟨993, by decide⟩

end Solvency
