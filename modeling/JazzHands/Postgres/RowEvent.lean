/-!
# Row-level triggers

A trigger `FOR EACH ROW` is told what happened to the row: `TG_OP`, with the records `OLD` and `NEW`
that go with it.
-/

namespace JazzHands.Postgres

/-- `TG_OP`, with `OLD` and `NEW`. -/
inductive RowEvent (ρ : Type) where
  | insert (new : ρ)
  | delete (old : ρ)
  | update (old new : ρ)
  deriving DecidableEq

namespace RowEvent

variable {ρ : Type}

/-- `OLD`, when `TG_OP` is DELETE or UPDATE. -/
def old? : RowEvent ρ → Option ρ
  | insert _ => none
  | delete old => some old
  | update old _ => some old

/-- `NEW`, when `TG_OP` is INSERT or UPDATE. -/
def new? : RowEvent ρ → Option ρ
  | insert new => some new
  | delete _ => none
  | update _ new => some new

variable {old new : ρ}

@[simp] theorem old?_insert : (insert new).old? = none := rfl
@[simp] theorem old?_delete : (delete old).old? = some old := rfl
@[simp] theorem old?_update : (update old new).old? = some old := rfl
@[simp] theorem new?_insert : (insert new).new? = some new := rfl
@[simp] theorem new?_delete : (delete old).new? = none := rfl
@[simp] theorem new?_update : (update old new).new? = some new := rfl

end RowEvent

end JazzHands.Postgres
