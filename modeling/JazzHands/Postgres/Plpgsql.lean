import JazzHands.Postgres.Error

/-!
# Names in the statements of a function

A statement inside a PL/pgSQL function may write a bare name that is both a variable of the function
and a column of the tables it reads.  What such a name means is up to the setting
`plpgsql.variable_conflict`, which a function can override for itself with `#variable_conflict`.
-/

namespace JazzHands.Postgres

inductive VariableConflict where
  | error
  | useVariable
  | useColumn

/-- The setting of a function that does not override it, on a server that does not change it. -/
def VariableConflict.default : VariableConflict := .error

/-- The value, on each row, of a bare name that is a variable and a column. -/
def bareName {ρ α : Type} (conflict : VariableConflict) (var : α) (column : ρ → α) :
    Result (ρ → α) :=
  match conflict with
  | .error => raise .ambiguousColumn "column reference \"%\" is ambiguous"
  | .useVariable => .ok fun _ => var
  | .useColumn => .ok column

section

variable {ρ α : Type} {v : α} {column : ρ → α}

@[simp] theorem bareName_default_ne_ok {f : ρ → α} : bareName .default v column ≠ .ok f :=
  raise_ne_ok

@[simp] theorem bareName_useVariable : bareName .useVariable v column = .ok fun _ => v := rfl

@[simp] theorem bareName_useColumn : bareName .useColumn v column = .ok column := rfl

/-- A statement that needs such a name is not run when the setting is left alone. -/
@[simp] theorem bareName_default_bind_ne_ok {β : Type} {f : (ρ → α) → Result β} {b : β} :
    (bareName .default v column >>= f) ≠ .ok b := by
  intro h
  obtain ⟨g, hg, -⟩ := bind_eq_ok.mp h
  exact bareName_default_ne_ok hg

end

end JazzHands.Postgres
