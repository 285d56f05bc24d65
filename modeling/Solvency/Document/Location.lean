import Solvency.Text.Basic

/-! Where in a document a value stands: the members and items that lead to it from the root. -/
namespace Solvency

inductive Step where
  | member (key : Text)
  | item (index : Nat)
  deriving DecidableEq, Repr

structure Location where
  root : Text := Text.ofString "$"
  steps : List Step := []
  deriving DecidableEq, Repr

def Step.text : Step → Text
  | .member key => "." ++ key
  | .item index => Text.ofString s!"[{index}]"

def Location.text (l : Location) : Text := l.root ++ l.steps.flatMap Step.text

def Location.down (l : Location) (s : Step) : Location := { l with steps := l.steps ++ [s] }

end Solvency
