import Linkage.Verification.Verifier

/-! What is left of the events of verifications when they are over. -/
namespace Linkage

/-- Events sorted by their kind. Of progress only the last is kept, and graphs are not. -/
structure Collection where
  messages : List String := []
  progress : Float := 0
  problems : List Problem := []
  warnings : List Warning := []
  ignored : List IgnoredProblem := []
  reports : List Report := []

namespace Collection

/-- Takes one more event in. -/
def add (c : Collection) : Event → Collection
  | .message text => { c with messages := c.messages ++ [text] }
  | .progress fraction => { c with progress := fraction }
  | .problem p => { c with problems := c.problems ++ [p] }
  | .warning w => { c with warnings := c.warnings ++ [w] }
  | .graph _ => c
  | .ignored i => { c with ignored := c.ignored ++ [i] }
  | .verdict r => { c with reports := c.reports ++ [r] }

def ofEvents (events : List Event) : Collection := events.foldl add {}

end Collection
end Linkage
