/-
RrdCache/Text/Scan.lean

Reading a text from its front.  A reader takes a part off and gives what is left, or
nothing if the part is not there.
-/

namespace RrdCache

namespace Scan

/-- A run of one or more characters of a class, as long as it gets. -/
def run? (p : Char → Bool) (s : List Char) : Option (List Char × List Char) :=
  if (s.takeWhile p).isEmpty then none else some (s.takeWhile p, s.dropWhile p)

/-- What follows a given beginning. -/
def after? (start s : List Char) : Option (List Char) :=
  if start.isPrefixOf s then some (s.drop start.length) else none

/-- What precedes a given ending. -/
def before? (ending s : List Char) : Option (List Char) :=
  if ending.isSuffixOf s then some (s.take (s.length - ending.length)) else none

end Scan

end RrdCache
