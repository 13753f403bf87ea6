import ItemFilter.Text.Blank

/-!
# Keywords

The first word of a line decides what the line is: two keywords open a block, the others are rules,
each with a category and a rule for its arguments.

## Main definitions

* `Keyword`: the words a line may start with, and their names
* `ArgumentRule`: what may follow the keyword of a rule
* `Keyword.kind`: what a keyword introduces
* `Keyword.allowsComment`: whether a comment may follow the arguments
-/

namespace ItemFilter

/-- Whether a rule selects items or changes how they are shown. -/
inductive Category where
  | condition
  | action
  deriving DecidableEq, Repr

/-- The name of a category. -/
def Category.name : Category → String
  | condition => "condition"
  | action => "action"

/-- The sets of names that a catalog keeps. -/
inductive NameKind where
  | classes
  | bases
  deriving DecidableEq, Repr

/-- The integers from `least` to `greatest`. -/
structure Bounds where
  /-- The smallest integer allowed. -/
  least : Int
  /-- The largest integer allowed. -/
  greatest : Int
  deriving DecidableEq, Repr

namespace Bounds

/-- Whether an integer lies within the bounds. -/
def contains (bounds : Bounds) (n : Int) : Bool :=
  bounds.least ≤ n && n ≤ bounds.greatest

/-- The bounds as shown to a reader. -/
def display (bounds : Bounds) : String :=
  s!"{bounds.least}-{bounds.greatest}"

end Bounds

/-- What may follow the keyword of a rule. -/
inductive ArgumentRule where
  /-- One number within bounds, and whether an operator may stand in front of it. -/
  | range (bounds : Bounds) (operator : Bool)
  /-- A truth value. -/
  | boolean
  /-- One string out of a list, in any case. -/
  | oneOf (allowed : List String)
  /-- One number out of a list, possibly behind an operator. -/
  | operatorNumber (allowed : List Int)
  /-- A group of socket letters. -/
  | socketGroup
  /-- Names that occur in the catalog. -/
  | catalogList (names : NameKind)
  /-- A hexadecimal colour, or three or four channels. -/
  | color
  /-- A sound and a volume. -/
  | alertSound
  deriving DecidableEq, Repr

/-- What a keyword introduces. -/
inductive KeywordKind where
  /-- A block of rules. -/
  | block
  /-- A rule within a block. -/
  | rule (category : Category) (arguments : ArgumentRule)
  deriving DecidableEq, Repr

/-- The words a line of a filter may start with. -/
inductive Keyword where
  | showBlock
  | hideBlock
  | itemLevel
  | dropLevel
  | quality
  | sockets
  | height
  | width
  | identified
  | corrupted
  | rarity
  | linkedSockets
  | socketGroup
  | itemClass
  | baseType
  | setFontSize
  | setBorderColor
  | setTextColor
  | setBackgroundColor
  | playAlertSound
  deriving DecidableEq, Repr

namespace Keyword

/-- Every keyword: blocks, then conditions, then actions. -/
def all : List Keyword :=
  [showBlock, hideBlock, itemLevel, dropLevel, quality, sockets, height, width, identified,
   corrupted, rarity, linkedSockets, socketGroup, itemClass, baseType, setFontSize, setBorderColor,
   setTextColor, setBackgroundColor, playAlertSound]

/-- A keyword as it is written in a filter. -/
def name : Keyword → String
  | showBlock => "Show"
  | hideBlock => "Hide"
  | itemLevel => "ItemLevel"
  | dropLevel => "DropLevel"
  | quality => "Quality"
  | sockets => "Sockets"
  | height => "Height"
  | width => "Width"
  | identified => "Identified"
  | corrupted => "Corrupted"
  | rarity => "Rarity"
  | linkedSockets => "LinkedSockets"
  | socketGroup => "SocketGroup"
  | itemClass => "Class"
  | baseType => "BaseType"
  | setFontSize => "SetFontSize"
  | setBorderColor => "SetBorderColor"
  | setTextColor => "SetTextColor"
  | setBackgroundColor => "SetBackgroundColor"
  | playAlertSound => "PlayAlertSound"

/-- The keyword written exactly like a word. -/
def ofName? (word : Text) : Option Keyword :=
  all.find? fun keyword => keyword.name.toList == word

/-- What a keyword introduces, and what may follow it. -/
def kind : Keyword → KeywordKind
  | showBlock | hideBlock => .block
  | itemLevel | dropLevel => .rule .condition (.range ⟨0, 100⟩ true)
  | quality => .rule .condition (.range ⟨0, 20⟩ true)
  | sockets => .rule .condition (.range ⟨0, 6⟩ true)
  | height => .rule .condition (.range ⟨1, 4⟩ true)
  | width => .rule .condition (.range ⟨1, 2⟩ true)
  | identified | corrupted => .rule .condition .boolean
  | rarity => .rule .condition (.oneOf ["Normal", "Magic", "Rare", "Unique"])
  | linkedSockets => .rule .condition (.operatorNumber [0, 2, 3, 4, 5, 6])
  | socketGroup => .rule .condition .socketGroup
  | itemClass => .rule .condition (.catalogList .classes)
  | baseType => .rule .condition (.catalogList .bases)
  | setFontSize => .rule .action (.range ⟨18, 45⟩ false)
  | setBorderColor | setTextColor | setBackgroundColor => .rule .action .color
  | playAlertSound => .rule .action .alertSound

/-- The category of a rule keyword. -/
def category? (keyword : Keyword) : Option Category :=
  match keyword.kind with
  | .block => none
  | .rule category _ => some category

/-- Whether a comment may follow the keyword and its arguments. -/
def allowsComment : Keyword → Bool
  | showBlock | hideBlock | setBorderColor | setTextColor | setBackgroundColor
  | playAlertSound => true
  | _ => false

end Keyword

end ItemFilter
