import DeviceDriverTest.TestRunnerOptions

/-! The words that the shell takes for patterns, and the names of files that it puts in their places. -/

namespace DeviceDriverTest

namespace PathnameExpansion

open TestRunner (Word)

/-- A word that stands for the names of files, where there are some that match. -/
def isPattern : Word → Bool
  | [] => false
  | c :: cs => c = '*' || c = '?' || (c = '[' && cs.contains ']') || isPattern cs

/-- The words that pathname expansion puts in the place of a word. -/
structure Directory where
  names : Word → List Word
  literal : ∀ word, isPattern word = false → names word = [word]

def empty : Directory := ⟨fun word => [word], fun _ _ => rfl⟩

theorem empty_names (words : List Word) : words.flatMap empty.names = words := List.flatMap_singleton' words

theorem literal_names (directory : Directory) {words : List Word} (h : ∀ word ∈ words, isPattern word = false) :
    words.flatMap directory.names = words :=
  (List.flatMap_congr fun word hword => directory.literal word (h word hword)).trans (List.flatMap_singleton' words)

end PathnameExpansion

end DeviceDriverTest
