import Solvency.Binary64.Text
import Solvency.Document.Basic
import Solvency.Text.Quoted

/-! How messages write a value, and the plain text of a value: a text stands for itself, a moment for
its text, every other value for its written form. -/
namespace Solvency
namespace Document

mutual

def literal : Document → String
  | .null => "None"
  | .bool b => if b then "True" else "False"
  | .integer n => toString n
  | .float x => x.text
  | .text t => t.quoted
  | .bytes bs => quotedBytes bs
  | .moment m => m.literal
  | .list xs => "[" ++ literals xs ++ "]"
  | .tuple [x] => "(" ++ literal x ++ ",)"
  | .tuple xs => "(" ++ literals xs ++ ")"
  | .set [] => "set()"
  | .set xs => "\x7b" ++ literals xs ++ "\x7d"
  | .mapping ms => "\x7b" ++ memberLiterals ms ++ "\x7d"

def literals : List Document → String
  | [] => ""
  | [x] => literal x
  | x :: xs => literal x ++ ", " ++ literals xs

def memberLiterals : List (Document × Document) → String
  | [] => ""
  | [(k, v)] => literal k ++ ": " ++ literal v
  | (k, v) :: ms => literal k ++ ": " ++ literal v ++ ", " ++ memberLiterals ms

end

def plain : Document → Text
  | .text t => t
  | .moment m => Text.ofString m.text
  | d => Text.ofString d.literal

mutual

/-- The integers that the written form of a value contains. -/
def integers : Document → List Int
  | .integer n => [n]
  | .list xs => integersIn xs
  | .tuple xs => integersIn xs
  | .set xs => integersIn xs
  | .mapping ms => memberIntegers ms
  | _ => []

def integersIn : List Document → List Int
  | [] => []
  | x :: xs => integers x ++ integersIn xs

def memberIntegers : List (Document × Document) → List Int
  | [] => []
  | (k, v) :: ms => integers k ++ integers v ++ memberIntegers ms

end

end Document
end Solvency
