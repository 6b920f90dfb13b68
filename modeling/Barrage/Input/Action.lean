import Std.Data.ExtTreeMap

/-!
# Actions and sets of actions

The simulation reads whether each of nine logical actions is active. A set of actions is a word of
sixteen bits, one bit for each action; a recording keeps the upper seven bits as well, and nothing
else looks at them.
-/

namespace Barrage

/-- What a player can do. -/
inductive Action where
  | up
  | down
  | left
  | right
  | slow
  | fire
  | special
  | pause
  /-- Accept a prompt. -/
  | enter
  deriving DecidableEq, Repr

namespace Action

/-- Every action, in the order of the bits. -/
def all : List Action := [up, down, left, right, slow, fire, special, pause, enter]

/-- The bit of an action. -/
def index : Action → Nat
  | up => 0
  | down => 1
  | left => 2
  | right => 3
  | slow => 4
  | fire => 5
  | special => 6
  | pause => 7
  | enter => 8

/-- Actions are ordered as their bits. -/
instance : Ord Action := ⟨compareOn index⟩

/-- Different actions have different bits. -/
theorem index_inj {a b : Action} (h : a.index = b.index) : a = b := by
  cases a <;> cases b <;> first | rfl | cases h

/-- No action is left out. -/
theorem mem_all (a : Action) : a ∈ all := by cases a <;> decide

instance : Std.TransOrd Action := inferInstanceAs (Std.TransCmp (compareOn index))

instance : Std.LawfulEqOrd Action where
  eq_of_compare h := index_inj (Std.LawfulEqOrd.eq_of_compare h)

end Action

/-- A set of actions, one bit for each. -/
structure ActionSet where
  bits : BitVec 16
  deriving DecidableEq

namespace ActionSet

/-- No bit is set. -/
def empty : ActionSet := ⟨0⟩

/-- The set with the bits of a number. -/
def ofNat (n : Nat) : ActionSet := ⟨BitVec.ofNat 16 n⟩

/-- The bits as a number. -/
def toNat (s : ActionSet) : Nat := s.bits.toNat

/-- The set of one action. -/
def single (a : Action) : ActionSet := ⟨BitVec.twoPow 16 a.index⟩

/-- Whether an action is in the set. -/
def has (s : ActionSet) (a : Action) : Bool := s.bits.getLsbD a.index

/-- The set with an action. -/
def insert (s : ActionSet) (a : Action) : ActionSet := ⟨s.bits ||| (single a).bits⟩

/-- The set without an action. -/
def erase (s : ActionSet) (a : Action) : ActionSet := ⟨s.bits &&& ~~~(single a).bits⟩

/-- The set with an action put in or taken out. -/
def set (s : ActionSet) (a : Action) (active : Bool) : ActionSet :=
  if active then s.insert a else s.erase a

/-- The set of the listed actions. -/
def ofList (actions : List Action) : ActionSet := actions.foldl insert empty

/-- The actions in the set, in the order of the bits. -/
def toList (s : ActionSet) : List Action := Action.all.filter s.has

/-- The bits of the nine actions. -/
def known : BitVec 16 := 0x1ff

/-- The set without bits that belong to no action. -/
def restrict (s : ActionSet) : ActionSet := ⟨s.bits &&& known⟩

/-- What is in the first set and not in the second one. -/
def diff (s t : ActionSet) : ActionSet := ⟨s.bits &&& ~~~t.bits⟩

/-- One of two opposite actions without the other one. -/
def only (s : ActionSet) (a opposite : Action) : Bool := s.has a && !s.has opposite

/-- An action was put in, and the others are as before. -/
@[simp] theorem has_insert (s : ActionSet) (a b : Action) :
    (s.insert a).has b = (s.has b || decide (a = b)) := by
  simp only [has, insert, single, BitVec.getLsbD_or, BitVec.getLsbD_twoPow]
  congr 1
  cases a <;> cases b <;> decide

/-- An action was taken out, and the others are as before. -/
@[simp] theorem has_erase (s : ActionSet) (a b : Action) :
    (s.erase a).has b = (s.has b && !decide (a = b)) := by
  simp only [has, erase, single, BitVec.getLsbD_and, BitVec.getLsbD_not, BitVec.getLsbD_twoPow]
  congr 1
  cases a <;> cases b <;> decide

/-- The empty set has no action. -/
@[simp] theorem has_empty (a : Action) : empty.has a = false := by
  simp [has, empty]

/-- Leaving out the bits of no action leaves every action. -/
@[simp] theorem has_restrict (s : ActionSet) (a : Action) : s.restrict.has a = s.has a := by
  simp only [has, restrict, BitVec.getLsbD_and]
  rw [show known.getLsbD a.index = true by cases a <;> decide, Bool.and_true]

/-- The difference has the actions of the first set that the second one lacks. -/
@[simp] theorem has_diff (s t : ActionSet) (a : Action) :
    (s.diff t).has a = (s.has a && !t.has a) := by
  simp only [has, diff, BitVec.getLsbD_and, BitVec.getLsbD_not]
  rw [show decide (a.index < 16) = true by cases a <;> decide, Bool.true_and]

end ActionSet

end Barrage
