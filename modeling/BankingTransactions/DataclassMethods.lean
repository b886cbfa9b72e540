import Mathlib.Data.Option.Basic

/-!
# The comparison methods of Python classes

`==` and `hash` look a method up in the dictionaries of the operand's class and its bases, in
the order of resolution. The class statement and the dataclass decorator add entries of their
own to a dictionary: a class that only inherits its comparison has it hidden by the decorator,
and the hash with it, while a class that defines both keeps them.
-/
namespace BankingTransactions.DataclassMethods

variable {O H C : Type}

/-- The value of `__hash__`: a method, or `None`, which makes the instances unhashable. -/
inductive HashEntry (O H : Type) where
  | unhashable
  | method (f : O → H)

/-- The two entries in the dictionary of one class. `__eq__` may return `NotImplemented`,
here `none`. -/
structure ClassDict (O H : Type) where
  eq : Option (O → O → Option Bool)
  hash : Option (HashEntry O H)

namespace ClassDict

/-- The class statement: a class that defines `__eq__` only is unhashable. -/
def ofBody (eq : Option (O → O → Option Bool)) (hash : Option (O → H)) : ClassDict O H :=
  { eq, hash := hash.map .method <|> eq.map fun _ => .unhashable }

/-- An entry that the class statement has put there does not count. -/
def hasExplicitHash (d : ClassDict O H) : Bool :=
  match d.hash with
  | none => false
  | some .unhashable => d.eq.isNone
  | some (.method _) => true

/-- `@dataclass` without arguments. The method that it generates compares objects of one
class, by the fields that `agree` compares. -/
def dataclass [DecidableEq C] (cls : O → C) (agree : O → O → Bool) (d : ClassDict O H) :
    ClassDict O H :=
  { eq := d.eq <|> some fun a b => if cls b = cls a then some (agree a b) else none
    hash := if d.hasExplicitHash then d.hash else some .unhashable }

/-- The class `object`. -/
def object (same : O → O → Bool) (address : O → H) : ClassDict O H :=
  { eq := some fun a b => if same a b then some true else none, hash := some (.method address) }

end ClassDict

/-- The dictionaries of a class and its bases, in the order of resolution. -/
abbrev Mro (O H : Type) : Type := List (ClassDict O H)

namespace Mro

def eq (mro : Mro O H) (a b : O) : Option Bool :=
  (mro.findSome? ClassDict.eq).bind fun method => method a b

/-- `a == b` for two objects of one class. -/
def equal (mro : Mro O H) (same : O → O → Bool) (a b : O) : Bool :=
  match mro.eq a b with
  | some result => result
  | none => (mro.eq b a).getD (same a b)

/-- `hash(a)`, or none for a TypeError. -/
def hash (mro : Mro O H) (a : O) : Option H :=
  match mro.findSome? ClassDict.hash with
  | some (.method f) => some (f a)
  | _ => none

/-- Equality by a key and a hash that respects it. -/
structure ComparedBy {K : Type} (mro : Mro O H) (same : O → O → Bool) (key : O → K) (a b : O) :
    Prop where
  equal : mro.equal same a b = true ↔ key a = key b
  left : (mro.hash a).isSome
  right : (mro.hash b).isSome
  hash : mro.equal same a b = true → mro.hash a = mro.hash b

variable [DecidableEq C] {cls : O → C} {agree : O → O → Bool} {bases : Mro O H}

/-- A dataclass that defines neither method compares by its fields, whatever its bases
define. -/
theorem equal_dataclass {a b : O} (hcls : cls b = cls a) (same : O → O → Bool) :
    equal ((ClassDict.ofBody none none).dataclass cls agree :: bases) same a b = agree a b := by
  simp [equal, eq, ClassDict.dataclass, ClassDict.ofBody, hcls]

/-- And nothing can hash it. -/
theorem hash_dataclass (a : O) :
    hash ((ClassDict.ofBody none none).dataclass cls agree :: bases) a = none := rfl

theorem not_comparedBy_dataclass {K : Type} (same : O → O → Bool) (key : O → K) (a b : O) :
    ¬ ComparedBy ((ClassDict.ofBody none none).dataclass cls agree :: bases) same key a b := by
  intro h
  have hleft := h.left
  rw [hash_dataclass] at hleft
  cases hleft

/-- A class that defines equality by a key, and the hash by the key too, is compared by it. -/
theorem comparedBy_ofBody {K : Type} [DecidableEq K] (same : O → O → Bool) (key : O → K)
    (keyHash : K → H) (a b : O) :
    ComparedBy (ClassDict.ofBody (some fun a b => some (decide (key a = key b)))
      (some fun a => keyHash (key a)) :: bases) same key a b := by
  have hequal : equal (ClassDict.ofBody (some fun a b => some (decide (key a = key b)))
      (some fun a => keyHash (key a)) :: bases) same a b = decide (key a = key b) := rfl
  refine ⟨by rw [hequal, decide_eq_true_iff], rfl, rfl, fun heq => ?_⟩
  rw [hequal, decide_eq_true_iff] at heq
  show some (keyHash (key a)) = some (keyHash (key b))
  rw [heq]

end Mro

end BankingTransactions.DataclassMethods
