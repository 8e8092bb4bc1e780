/-
The rules of a grammar written out as productions: every choice is multiplied out, so that a
production is a plain sequence of symbols.
-/
import ClassDiagram.Grammar.Rule

namespace ClassDiagram.Grammar

/-- A place in a production: the symbol that stands there, and how what is read there appears in the
tree. -/
structure Step where
  symbol : Symbol
  role : Option Role := none
  shown : Option Kind := none
  deriving DecidableEq

/-- One way to make a phrase. -/
structure Production where
  /-- The phrase that is made. -/
  head : Kind
  /-- The number of the production among those of its phrase. -/
  number : Nat
  steps : List Step
  level : Int
  side : Option Side
  weight : Int

namespace Rule

/-- Writes spread phrases out. -/
def spread (definition : Kind → Rule) : Rule → Rule
  | .empty => .empty
  | .symbol (.kind k) => if k.isSpread then definition k else .symbol (.kind k)
  | .symbol s => .symbol s
  | .seq a b => .seq (a.spread definition) (b.spread definition)
  | .choice a b => .choice (a.spread definition) (b.spread definition)
  | .role p r => .role p (r.spread definition)
  | .shownAs k r => .shownAs k (r.spread definition)

/-- The sequences of steps that the rule allows. -/
def forms : Rule → List (List Step)
  | .empty => [[]]
  | .symbol s => [[{ symbol := s }]]
  | .seq a b => a.forms.flatMap fun first => b.forms.map (first ++ ·)
  | .choice a b => a.forms ++ b.forms
  | .role p r => r.forms.map (·.map fun step => { step with role := some p })
  | .shownAs k r => r.forms.map (·.map fun step => { step with shown := some k })

end Rule

/-- The productions of a phrase. A phrase that the grammar spreads has none of its own, and no
production is empty: that a source may be empty is for the reader to know. -/
def productionsOf (rules : Kind → List Alternative) (k : Kind) : List Production :=
  if k.isSpread then []
  else
    let definition (k : Kind) : Rule := Rule.any ((rules k).map (·.body))
    let ways := (rules k).flatMap fun a =>
      ((a.body.spread definition).forms.filter (!·.isEmpty)).map (a, ·)
    ways.mapIdx fun number (a, steps) =>
      { head := k, number, steps, level := a.level, side := a.side, weight := a.weight }

end ClassDiagram.Grammar
