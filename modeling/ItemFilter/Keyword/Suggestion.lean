import ItemFilter.Keyword
import ItemFilter.Text.Distance
import ItemFilter.Text.Lowercase

/-!
# Suggestions

A word that is no keyword may be a misspelled one. The keyword closest to it in letters, whatever
their case, is suggested if it is close enough for its length.

## Main definitions

* `Keyword.distanceFrom`: how far a word is from a keyword
* `Keyword.tolerance`: how far a word may be from a keyword it stands for
* `Keyword.suggest?`: the keyword a word may stand for
-/

namespace ItemFilter.Keyword

open Text

/-- The edit distance between a word and a keyword, both in lower case. -/
def distanceFrom (word : Text) (keyword : Keyword) : Nat :=
  distance (lowercase word) (lowercase keyword.name.toList)

/-- The greatest distance of a word that still stands for the keyword: a third of its length, and
at most two. -/
def tolerance (keyword : Keyword) : Nat :=
  min (keyword.name.length / 3) 2

/-- The closer of two keywords, the first one of two that are equally close. -/
def closer (word : Text) (first second : Keyword) : Keyword :=
  if second.distanceFrom word < first.distanceFrom word then second else first

/-- The keyword closest to a word, the first of them in the order of the table. -/
def closest (word : Text) : Keyword :=
  all.foldl (closer word) showBlock

/-- The keyword a word may stand for. -/
def suggest? (word : Text) : Option Keyword :=
  let keyword := closest word
  if keyword.distanceFrom word ≤ keyword.tolerance then some keyword else none

end ItemFilter.Keyword
