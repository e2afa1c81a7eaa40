import Neaten.Text.Basic

/-! # Values in templates

    What the variables of a template stand for: texts and numbers, lists, and
    objects with named fields. -/

namespace Neaten.Template

/-- The value of a variable or field. -/
inductive Value where
  | null
  | bool (b : Bool)
  | number (n : Nat)
  | text (t : Text)
  | list (values : List Value)
  | object (fields : List (Text × Value))

namespace Value

/-- Whether a condition on a value holds.  Nothing, zero and whatever is empty
    count as false. -/
def isTrue : Value → Bool
  | null => false
  | bool b => b
  | number n => n != 0
  | text t => !t.isEmpty
  | list values => !values.isEmpty
  | object fields => !fields.isEmpty

/-- A field of an object. -/
def field? (name : Text) : Value → Option Value
  | object fields => fields.lookup name
  | _ => none

/-- How many parts a value has: characters, elements or fields. -/
def length? : Value → Option Nat
  | text t => some t.length
  | list values => some values.length
  | object fields => some fields.length
  | _ => none

/-- A truth value in words. -/
def boolText (b : Bool) : Text := if b then "true" else "false"

/-- What is written for an object. -/
def objectText : Text := "[object]"

mutual

/-- A value as it is written into the result.  A text is written as it is. -/
def print : Value → Text
  | null => []
  | bool b => boolText b
  | number n => Text.decimal n
  | text t => t
  | list values => '[' :: (printAll values ++ [']'])
  | object _ => objectText

/-- Some values with commas between. -/
def printAll : List Value → Text
  | [] => []
  | v :: rest => print v ++ printMore rest

/-- Some values with a comma before each. -/
def printMore : List Value → Text
  | [] => []
  | v :: rest => ',' :: ' ' :: (print v ++ printMore rest)

end

@[simp] theorem print_text (t : Text) : (text t).print = t := by rw [print]

@[simp] theorem print_number (n : Nat) : (number n).print = Text.decimal n := by rw [print]

end Value

end Neaten.Template
