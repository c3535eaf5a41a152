import PlainNotes.Pattern.Basic
import PlainNotes.Text.Blank
import PlainNotes.Text.Fold

/-!
# The wording of requests

The patterns by which sentences are recognised. Words are found inside other words too, and in any
case unless said otherwise; a quoted stretch opens and closes with either kind of quote and stays on
one line.

Each family of phrases is a list of patterns, of which the first that occurs in a sentence counts.
-/

namespace PlainNotes.Phrase

open Text Pattern

/-! ## Parts of phrases -/

/-- A word in any case. -/
def word (w : String) : Pattern :=
  Pattern.all (w.toList.map fun letter => one (foldsTo letter))

/-- A word in exactly this case. -/
def exactly (w : String) : Pattern :=
  Pattern.all (w.toList.map fun letter => one (· == letter))

def oneOf (ws : List String) : Pattern :=
  Pattern.any (ws.map word)

def gap : Pattern := many1 isBlank

def isQuote (c : Char) : Bool :=
  c == '\'' || c == '"'

/-- Characters that do not end a line. -/
def inLine (c : Char) : Bool :=
  c != '\n'

/-- A captured stretch between quotes, as short as possible but not empty. -/
def quoted (g : Group) : Pattern :=
  Pattern.all [one isQuote, group g (few1 inLine), one isQuote]

/-- A word that may be left out, together with the blanks after it. -/
def maybe (w : String) : Pattern :=
  optional (seq (word w) gap)

/-! ## Creating a note -/

/-- What may stand between a title and its items: `with items`, then a colon or `of`. -/
def withItems : Pattern :=
  Pattern.all [gap, word "with", gap, oneOf ["items", "content", "text"],
    optional (alt (seq (many isBlank) (one (· == ':'))) (seq gap (word "of")))]

/-- A title in quotes, and after it whatever else the line holds. -/
def titled : Pattern :=
  Pattern.all [gap, oneOf ["titled", "called", "named"], gap, quoted .first, optional withItems,
    optional (seq gap (group .second (many1 inLine)))]

def createPatterns : List Pattern :=
  [ Pattern.all [word "create", gap, maybe "a", word "note", titled],
    Pattern.all [oneOf ["make", "add"], gap, maybe "a", maybe "new", word "note", titled],
    Pattern.all [oneOf ["take", "write"], gap, maybe "a", word "note", titled] ]

/-! ## Updating a note -/

/-- A verb, what to add, and the note it goes to. -/
def addTo (verb : String) : Pattern :=
  Pattern.all [word verb, gap, group .first (few1 inLine), gap, word "to", gap, maybe "my",
    quoted .second]

/-- The note to update, and what to add to it. -/
def updateWith : Pattern :=
  Pattern.all [word "update", gap, maybe "my", quoted .first, optional (seq gap (word "note")), gap,
    alt (word "with") (seq (word "to") (optional (seq gap (word "add")))), gap,
    group .second (many1 inLine)]

def updatePatterns : List Pattern :=
  [addTo "add", updateWith, addTo "append"]

/-! ## Deleting and searching -/

/-- A verb and the name of a note. -/
def verbNamed (verb : Pattern) : Pattern :=
  Pattern.all [verb, gap, maybe "my", maybe "note", quoted .first]

def deletePatterns : List Pattern :=
  [ verbNamed (word "delete"), verbNamed (word "remove"), verbNamed (word "trash"),
    verbNamed (Pattern.all [word "get", gap, word "rid", gap, word "of"]) ]

def searchPatterns : List Pattern :=
  [ verbNamed
      (Pattern.any [word "search", word "find", Pattern.all [word "look", gap, word "for"]]),
    Pattern.all [oneOf ["search", "find", "look"], gap, maybe "for",
      optional (Pattern.all [word "note", optional (word "s"), gap]),
      oneOf ["with", "containing", "about"], gap, quoted .first] ]

/-! ## Trips -/

def tripWords : List String := ["trip", "travel", "vacation"]

/-- One of the trip words, in small letters. -/
def tripWord : Pattern :=
  Pattern.any (tripWords.map exactly)

def inPlace (c : Char) : Bool :=
  c.isAlpha || isBlank c || c == ','

def tripPatterns : List Pattern :=
  [ Pattern.all [tripWord, optional (seq gap (Pattern.any (["to", "for", "in"].map exactly))), gap,
      group .first (many1 inPlace)],
    Pattern.all [group .first (many1 inPlace), gap, tripWord] ]

/-! ## Other requests for a note -/

/-- The words that ask for a note whatever else a sentence says. -/
def makingWords : List String := ["create", "new", "make"]

def quotedSpan : Pattern := quoted .first

def noteTopic : Pattern :=
  Pattern.all [word "note", gap, oneOf ["about", "on", "for"], gap, group .first (few1 inLine),
    alt (one isBlank) atEnd]

/-- What the title of a note may be, where no phrase names it. -/
def topicPatterns : List Pattern := [quotedSpan, noteTopic]

/-! ## Looking for a phrase -/

/-- The match of the first pattern that occurs in a text. -/
def firstMatch (ps : List Pattern) (s : List Char) : Option Captures :=
  ps.findSome? fun p => p.search s

def mentions (ws : List String) (s : List Char) : Bool :=
  ws.any fun w => contains w.toList s

end PlainNotes.Phrase
