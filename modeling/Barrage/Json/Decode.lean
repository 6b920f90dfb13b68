import Barrage.Json

/-!
# Reading values out of JSON

Each type of the content has a reader `Json K → Option α`, which is empty on a value of another
shape. The rules they share are stated here.

* An integer is written as an integer: without a point, an exponent or quotes. A number of the
  simulation is any JSON number.
* A record is an object, whose unknown members are ignored, or a list of its fields in order. A list
  may break off before fields that have a default, and is never too long.
* A field that may be missing reads `null` as missing. By name it may be left out; in a list its
  place has to be taken, unless it has a default.
* A choice between names is the name itself, or an object whose one member has that name and the
  value `null`.
* A record that comes in several kinds has its kind in the member `type`, or in front of the list.
  Anywhere inside such a record, an empty object may stand for the `null` beside a name.
-/

namespace Barrage.Json

variable {K : Type} {α : Type}

/-- A truth value. -/
def bool? : Json K → Option Bool
  | .bool b => some b
  | _ => none

/-- A text. -/
def str? : Json K → Option String
  | .str s => some s
  | _ => none

/-- An integer between two bounds, the upper one excluded. -/
def intIn? (lo hi : Int) : Json K → Option Int
  | .int i => if lo ≤ i ∧ i < hi then some i else none
  | _ => none

/-- A natural number below a bound. -/
def nat? (bound : Nat) (j : Json K) : Option Nat := (intIn? 0 bound j).map Int.toNat

/-- A natural number of thirty-two bits. -/
def nat32? : Json K → Option Nat := nat? 0x100000000

/-- A natural number of sixty-four bits. -/
def nat64? : Json K → Option Nat := nat? 0x10000000000000000

/-- A signed integer of thirty-two bits. -/
def int32? : Json K → Option Int := intIn? (-0x80000000) 0x80000000

/-- A signed integer of sixty-four bits. -/
def int64? : Json K → Option Int := intIn? (-0x8000000000000000) 0x8000000000000000

/-- A number of the simulation. -/
def scalar? [Scalar K] : Json K → Option K
  | .int i => some (Scalar.ofInt i)
  | .real x => some x
  | _ => none

/-- A list of values of one type. -/
def list? (read : Json K → Option α) : Json K → Option (List α)
  | .arr items => items.mapM read
  | _ => none

/-- A list of exactly two values of one type. -/
def pair? (read : Json K → Option α) : Json K → Option (α × α)
  | .arr [a, b] => do return (← read a, ← read b)
  | _ => none

/-- A value that may be missing: `null` stands for none. -/
def option? (read : Json K → Option α) : Json K → Option (Option α)
  | .null => some none
  | j => (read j).map some

/-- A natural number that fits is read as it was written. -/
theorem nat?_ofNat {bound n : Nat} (h : n < bound) :
    nat? bound (ofNat n : Json K) = some n := by
  simp [nat?, intIn?, ofNat, h]

/-- An integer that fits is read as it was written. -/
theorem intIn?_int {lo hi i : Int} (h : lo ≤ i ∧ i < hi) :
    intIn? lo hi (.int i : Json K) = some i := by
  rw [intIn?, if_pos h]

/-- A number that may be missing is read as it was written. -/
theorem option?_ofNat {bound : Nat} {o : Option Nat} (h : ∀ n ∈ o, n < bound) :
    option? (nat? bound) (ofOption ofNat o : Json K) = some o := by
  cases o with
  | none => rfl
  | some n =>
    change ((nat? bound (ofNat n : Json K)).map some) = some (some n)
    rw [nat?_ofNat (h n rfl), Option.map_some]

/-- A list is read as it was written, if its members are. -/
theorem list?_ofList {read : Json K → Option α} {write : α → Json K} {items : List α}
    (h : ∀ a ∈ items, read (write a) = some a) :
    list? read (ofList write items) = some items := by
  simp only [list?, ofList, List.mapM_map]
  induction items with
  | nil => rfl
  | cons a rest ih =>
    rw [List.mapM_cons]
    simp only [Function.comp_apply, h a (by simp)]
    rw [ih fun b hb => h b (by simp [hb])]
    rfl

/-- The name that a choice between names gives. -/
def name? : Json K → Option String
  | .str s => some s
  | .obj [(key, .null)] => some key
  | _ => none

/-- The name that a choice between names gives inside a record that comes in several kinds. -/
def nestedName? : Json K → Option String
  | .obj [(key, .obj [])] => some key
  | j => j.name?

/-- The value of a key among the members of an object. -/
def lookup? (members : List (String × Json K)) (key : String) : Option (Json K) :=
  (members.find? (·.1 == key)).map (·.2)

section
variable {members : List (String × Json K)} {name key : String} {j : Json K}

/-- The first member is found by its key. -/
theorem lookup?_cons_self : lookup? ((name, j) :: members) name = some j := by
  simp [lookup?]

/-- A key is looked up behind a member that has another one. -/
theorem lookup?_cons_of_ne (h : key ≠ name) :
    lookup? ((key, j) :: members) name = lookup? members name := by
  simp [lookup?, h]

end

/-- The fields of a record. -/
inductive Fields (K : Type) where
  /-- Fields by name. -/
  | named (members : List (String × Json K))
  /-- Fields by position. -/
  | positional (items : List (Json K))

namespace Fields

/-- A field by its position and its name. -/
def get? : Fields K → Nat → String → Option (Json K)
  | named members, _, name => lookup? members name
  | positional items, index, _ => items[index]?

/-- A field that has to be there. -/
def required (f : Fields K) (index : Nat) (name : String) (read : Json K → Option α) :
    Option α :=
  (f.get? index name).bind read

/-- A field with a default. -/
def withDefault (f : Fields K) (index : Nat) (name : String) (default : α)
    (read : Json K → Option α) : Option α :=
  match f.get? index name with
  | none => some default
  | some j => read j

/-- A field that may be missing and has no default: its place in a list has to be taken. -/
def optional (f : Fields K) (index : Nat) (name : String) (read : Json K → Option α) :
    Option (Option α) :=
  match f with
  | named _ => f.withDefault index name none (option? read)
  | positional _ => f.required index name (option? read)

section
variable {f f' : Fields K} {index : Nat} {name : String}

/-- A field is read alike from records that hold the same there. -/
theorem required_congr (h : f'.get? index name = f.get? index name) (read : Json K → Option α) :
    f'.required index name read = f.required index name read := by
  rw [required, h, required]

/-- A field with a default is read alike from such records as well. -/
theorem withDefault_congr (h : f'.get? index name = f.get? index name) (default : α)
    (read : Json K → Option α) :
    f'.withDefault index name default read = f.withDefault index name default read := by
  unfold withDefault
  rw [h]

section
variable {members : List (String × Json K)} {key : String} {j : Json K} {read : Json K → Option α}

/-- A field that is there by name is read from the value that was looked up. -/
theorem required_named (h : lookup? members name = some j) :
    (named members).required index name read = read j := by
  rw [required, get?, h, Option.bind_some]

/-- A field that stands first is read. -/
theorem required_cons_self :
    (named ((name, j) :: members)).required index name read = read j :=
  required_named lookup?_cons_self

/-- A field is read behind a member that has another name. -/
theorem required_cons_of_ne (h : key ≠ name) :
    (named ((key, j) :: members)).required index name read =
      (named members).required index name read := by
  rw [required, get?, lookup?_cons_of_ne h, required, get?]

/-- A field with a default that stands first is read. -/
theorem withDefault_cons_self {default : α} :
    (named ((name, j) :: members)).withDefault index name default read = read j := by
  unfold withDefault
  rw [get?, lookup?_cons_self]

/-- A field that may be missing is read if it stands first. -/
theorem optional_cons_self :
    (named ((name, j) :: members)).optional index name read = option? read j :=
  withDefault_cons_self

/-- A field that may be missing is read behind a member that has another name. -/
theorem optional_cons_of_ne (h : key ≠ name) :
    (named ((key, j) :: members)).optional index name read =
      (named members).optional index name read := by
  unfold optional withDefault
  rw [get?, lookup?_cons_of_ne h, get?]

end

end

/-- The fields by name, if they are. -/
def named? : Fields K → Option (Fields K)
  | named members => some (named members)
  | positional _ => none

/-- The fields, if there are at most `count` of them by position. -/
def atMost? (count : Nat) : Fields K → Option (Fields K)
  | named members => some (named members)
  | positional items => if items.length ≤ count then some (positional items) else none

end Fields

/-- The fields of a record that has `count` of them. -/
def record? (count : Nat) : Json K → Option (Fields K)
  | .obj members => some (.named members)
  | .arr items => (Fields.positional items).atMost? count
  | _ => none

/-- The fields of a record that is always an object. -/
def object? : Json K → Option (Fields K)
  | .obj members => some (.named members)
  | _ => none

/-- The kind of a record that comes in several kinds, and its fields. -/
def tagged? : Json K → Option (String × Fields K)
  | .obj members => do
    let kind ← (lookup? members "type").bind str?
    return (kind, .named members)
  | .arr (kind :: items) => do
    let kind ← kind.str?
    return (kind, .positional items)
  | _ => none

end Barrage.Json
