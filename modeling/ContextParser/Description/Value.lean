import ContextParser.Inspect

/-!
# Dynamic values

A grammar that is read from a description knows the kinds of its values only when it runs. All of
them, and the contexts too, are then values of one type.

Values are equal when they are built alike. In particular the unit value is not an empty list,
although it counts as one wherever a list is asked for.
-/

set_option autoImplicit false

namespace ContextParser

/-- A value whose kind is known when it is used. -/
inductive Value where
  | unit
  | bool (value : Bool)
  | int (value : Int)
  | text (value : String)
  | list (items : List Value)
  | tuple (items : List Value)
  | none
  | some (value : Value)
deriving Repr, Inhabited

namespace Value

mutual

/-- Whether two values are built alike. -/
def same : Value → Value → Bool
  | unit, unit => true
  | bool a, bool b => a == b
  | int a, int b => a == b
  | text a, text b => a == b
  | list as, list bs => sameItems as bs
  | tuple as, tuple bs => sameItems as bs
  | none, none => true
  | some a, some b => same a b
  | _, _ => false

/-- Whether two lists have as many items, and items built alike at each place. -/
def sameItems : List Value → List Value → Bool
  | [], [] => true
  | a :: as, b :: bs => same a b && sameItems as bs
  | _, _ => false

end

mutual

/-- Values that compare as the same are equal. -/
theorem eq_of_same : {a b : Value} → same a b = true → a = b
  | unit, b, h => by cases b <;> simp_all [same]
  | bool _, b, h => by cases b <;> simp_all [same]
  | int _, b, h => by cases b <;> simp_all [same]
  | text _, b, h => by cases b <;> simp_all [same]
  | list as, b, h => by
    cases b <;> simp only [same, Bool.false_eq_true] at h
    rw [eq_of_sameItems h]
  | tuple as, b, h => by
    cases b <;> simp only [same, Bool.false_eq_true] at h
    rw [eq_of_sameItems h]
  | none, b, h => by cases b <;> simp_all [same]
  | some a, b, h => by
    cases b <;> simp only [same, Bool.false_eq_true] at h
    rw [eq_of_same h]

/-- Lists of values that compare as the same are equal. -/
theorem eq_of_sameItems : {as bs : List Value} → sameItems as bs = true → as = bs
  | [], bs, h => by cases bs <;> simp_all [sameItems]
  | a :: as, bs, h => by
    cases bs with
    | nil => simp [sameItems] at h
    | cons b bs =>
      rw [sameItems, Bool.and_eq_true] at h
      rw [eq_of_same h.1, eq_of_sameItems h.2]

end

mutual

/-- Every value compares as the same as itself. -/
theorem same_self : (a : Value) → same a a = true
  | unit => rfl
  | bool _ => by simp [same]
  | int _ => by simp [same]
  | text _ => by simp [same]
  | list as => by rw [same, sameItems_self as]
  | tuple as => by rw [same, sameItems_self as]
  | none => rfl
  | some a => by rw [same, same_self a]

/-- Every list of values compares as the same as itself. -/
theorem sameItems_self : (as : List Value) → sameItems as as = true
  | [] => rfl
  | a :: as => by rw [sameItems, same_self a, sameItems_self as, Bool.and_self]

end

instance : DecidableEq Value := fun a b =>
  if h : same a b = true then
    isTrue (eq_of_same h)
  else
    isFalse fun heq => h (heq ▸ same_self a)

/-- The items of a list or tuple. Anything else, the unit value above all, has none. -/
def items : Value → List Value
  | list items => items
  | tuple items => items
  | _ => []

/-- The integer of an integer value, else zero. -/
def toInt : Value → Int
  | int value => value
  | _ => 0

/-- The text of a text value, else the empty text. -/
def toText : Value → String
  | text value => value
  | _ => ""

/-- The truth value of a truth value, else false. -/
def toBool : Value → Bool
  | bool value => value
  | _ => false

/-- The length in an optional integer, if there is one. -/
def toLength? : Value → Option Nat
  | some value => Option.some value.toInt.toNat
  | _ => Option.none

/-- An optional value as a value. -/
def ofOption : Option Value → Value
  | Option.none => none
  | Option.some value => some value

mutual

/-- A value in full. -/
def render : Value → String
  | unit => inspect ()
  | bool value => if value then "true" else "false"
  | int value => toString value
  | text value => inspect value
  | list items => Inspect.list (renderItems items)
  | tuple items => Inspect.tuple (renderItems items)
  | none => "None"
  | some value => Inspect.wrapped "Some" (render value)

/-- Each item of a list in full. -/
def renderItems : List Value → List String
  | [] => []
  | value :: values => render value :: renderItems values

end

instance : Inspect Value where
  inspect := render

end Value

/-- Contexts that a described grammar can read and write as values. -/
class DynamicContext (C : Type) where
  /-- The context as a value. -/
  toValue : C → Value
  /-- The context that a value stands for. -/
  ofValue : Value → C

instance : DynamicContext Value where
  toValue value := value
  ofValue value := value

/-- Where there is nothing to carry along, the context reads as the unit value and whatever is
written to it is dropped. -/
instance : DynamicContext Unit where
  toValue _ := .unit
  ofValue _ := ()

end ContextParser
