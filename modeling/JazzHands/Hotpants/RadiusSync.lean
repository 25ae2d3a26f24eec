import Mathlib.Data.List.AList

/-!
# Attributes are brought to a server

The attribute section of `radiussync.pl`.

The hashes are lists with keys, in no particular order.  `fetch_attributes`, `put_attributes` and
`delete_attributes` find, store and remove what they are given; what is printed is left out.
-/

namespace JazzHands.Hotpants
namespace RadiusSync

/-- `propval` may be NULL.  The flags are those of the property. -/
structure Row where
  login : String
  propname : String
  proptype : String
  propval : Option String
  multivalue : Bool
  boolean : Bool
  devcollid : ℕ

/-- `pack("Z*N", $login, $devcollid)`, where no login has a NUL and the ids are of 32 bits. -/
abbrev Key : Type := String × ℕ

/-- A `value` with its `multivalue`, and a list of values where `multivalue` is not set. -/
inductive Attribute where
  | single (value : Option String)
  | multi (values : List (Option String))
  | misplaced (values : List (Option String))
  deriving DecidableEq

/-- The attributes of a type by their names. -/
abbrev Names : Type := AList fun _ : String => Attribute

/-- The attributes of a key, by type. -/
abbrev Attributes : Type := AList fun _ : String => Names

abbrev Store : Type := AList fun _ : Key => Attributes

/-- What an operator on text reads: `undef` is the empty text. -/
def text (value : Option String) : String := value.getD ""

/-- The value is true. -/
def isTrue (value : Option String) : Bool := text value ≠ "" ∧ text value ≠ "0"

/-! ## The loop over the rows -/

/-- A name with `=` is that of an attribute-value pair. -/
def splitName (row : Row) : Row :=
  if row.proptype = "RADIUS" ∧ '=' ∈ row.propname.toList then
    { row with
      propname := String.ofList (row.propname.toList.takeWhile (· ≠ '='))
      propval := some (String.ofList (row.propname.toList.dropWhile (· ≠ '=')).tail ++ "=" ++
        text row.propval) }
  else row

/-- The row with the type, name and value that are stored. -/
def rewrite (row : Row) : Row :=
  let row := if row.proptype = "RADIUS" ∧
      (row.propname = "GrantAccess" ∨ row.propname = "PWType") then
    { row with proptype := "__HOTPANTS_INTERNAL" } else row
  let row := splitName row
  if row.boolean then
    { row with propval := some (if text row.propval = "Y" then "1" else "0") }
  else row

/-- `push` unless one of the values is equal. -/
def pushNew (values : List (Option String)) (propval : Option String) : List (Option String) :=
  if values.any fun value => text value = text propval then values else values ++ [propval]

/-- A value comes to an attribute; `multivalue` is that of the first row, the choice between one
value and a list that of the row at hand. -/
def addValue (multivalue : Bool) (propval : Option String) :
    Option Attribute → Except String Attribute
  | none => .ok (if multivalue then .multi [propval] else .single propval)
  | some (.single none) => .ok (if multivalue then .misplaced [propval] else .single propval)
  | some (.single (some value)) =>
    if multivalue then
      .error "Can't use string (\"%s\") as an ARRAY ref while \"strict refs\" in use"
    else .ok (.single (some value))
  | some (.multi values) => .ok (.multi (if multivalue then pushNew values propval else values))
  | some (.misplaced values) =>
    .ok (.misplaced (if multivalue then pushNew values propval else values))

def addRow (attributes : Store) (row : Row) : Except String Store := do
  let row := rewrite row
  let key := (row.login, row.devcollid)
  let types := (attributes.lookup key).getD ∅
  let names := (types.lookup row.proptype).getD ∅
  let attr ← addValue row.multivalue row.propval (names.lookup row.propname)
  .ok (attributes.insert key (types.insert row.proptype (names.insert row.propname attr)))

/-- An error ends the script. -/
def collect (rows : List Row) : Except String Store := rows.foldlM addRow ∅

/-! ## The comparison -/

/-- `grep $val, @{$hpvals}` asks of every value of the server whether `$val` is true.  The text of a
reference to a list is no value. -/
def changedAttribute (hpattr : Attribute) : Attribute → Bool
  | .multi vals =>
    match hpattr with
    | .multi hpvals => vals.length ≠ hpvals.length ||
        vals.any fun val => (hpvals.filter fun _ => isTrue val).length = 0
    | _ => true
  | .single value =>
    match hpattr with
    | .single hpvalue => text hpvalue ≠ text value
    | _ => true
  | .misplaced _ => true

def changedNames (hpattr attr : Names) : Bool :=
  hpattr.keys.length ≠ attr.keys.length || attr.entries.any fun e =>
    match hpattr.lookup e.1 with
    | none => true
    | some h => changedAttribute h e.2

def changed (hpattr attr : Attributes) : Bool :=
  hpattr.keys.length ≠ attr.keys.length || attr.entries.any fun e =>
    match hpattr.lookup e.1 with
    | none => true
    | some h => changedNames h e.2

/-! ## The loops over the keys -/

/-- The entry of a key that the server has afterwards. -/
def syncEntry (attr : Attributes) : Option Attributes → Attributes
  | none => attr
  | some hpattr => if changed hpattr attr then attr else hpattr

def syncKey (store : Store) (e : Σ _ : Key, Attributes) : Store :=
  match store.lookup e.1 with
  | none => store.insert e.1 e.2
  | some hpattr => if changed hpattr e.2 then store.insert e.1 e.2 else store

def deleteKey (attributes : Store) (store : Store) (key : Key) : Store :=
  if key ∈ attributes then store else store.erase key

def syncAttributes (attributes store : Store) : Store :=
  let store := attributes.entries.foldl syncKey store
  store.keys.foldl (deleteKey attributes) store

/-- The local store after the section. -/
def radiussync (rows : List Row) (store : Store) : Store :=
  match collect rows with
  | .error _ => store
  | .ok attributes => syncAttributes attributes store

end RadiusSync
end JazzHands.Hotpants
