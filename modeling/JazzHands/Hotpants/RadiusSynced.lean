import JazzHands.Hotpants.RadiusSync
import Mathlib.Data.List.Dedup
import Mathlib.Data.List.Induction

/-!
# When the attributes are those of the database

Values of a multi-valued attribute that are as many as before are never compared.
-/

namespace JazzHands.Hotpants
namespace RadiusSync

def Row.key (row : Row) : Key := (row.login, row.devcollid)

/-- The flag and the value that a row has for an attribute. -/
def Row.valueFor (key : Key) (type name : String) (row : Row) : Option (Bool × Option String) :=
  if row.key = key ∧ row.proptype = type ∧ row.propname = name then
    some (row.multivalue, row.propval)
  else none

def valuesOf (rows : List Row) (key : Key) (type name : String) : List (Bool × Option String) :=
  rows.filterMap fun row => (rewrite row).valueFor key type name

/-- The attribute of a type and name. -/
def Attributes.get (a : Attributes) (type name : String) : Option Attribute :=
  (a.lookup type).bind fun names => names.lookup name

/-- The first value that is not NULL. -/
def firstValue (vals : List (Bool × Option String)) : Option String :=
  vals.findSome? Prod.snd

/-- Every type has attributes. -/
def Attributes.Filled (a : Attributes) : Prop :=
  ∀ type names, a.lookup type = some names → ∃ name, name ∈ names

/-- A single-valued attribute has the first value, a multi-valued one the different values. -/
def IsRight (vals : List (Bool × Option String)) : Option Attribute → Prop
  | none => vals = []
  | some (.single value) =>
    vals ≠ [] ∧ (∀ v ∈ vals, v.1 = false) ∧ text value = text (firstValue vals)
  | some (.multi values) =>
    vals ≠ [] ∧ (∀ v ∈ vals, v.1 = true) ∧
      (values.map text).Perm (vals.map fun v => text v.2).dedup
  | some (.misplaced _) => False

def IsEntry (rows : List Row) (key : Key) (a : Attributes) : Prop :=
  a.Filled ∧ ∀ type name, IsRight (valuesOf rows key type name) (a.get type name)

def Synced (rows : List Row) (store : Store) : Prop :=
  ∀ key, ((∃ row ∈ rows, row.key = key) → ∃ a, store.lookup key = some a ∧ IsEntry rows key a) ∧
    ((∀ row ∈ rows, row.key ≠ key) → store.lookup key = none)

/-- No attribute is single-valued in one row and multi-valued in another. -/
def Unmixed (rows : List Row) : Prop :=
  ∀ key type name, (∀ v ∈ valuesOf rows key type name, v.1 = false) ∨
    ∀ v ∈ valuesOf rows key type name, v.1 = true

/-- Like `IsRight`, but of several values only how many there are; none of them is false. -/
def LooksRight (vals : List (Bool × Option String)) : Option Attribute → Prop
  | none => vals = []
  | some (.single value) =>
    vals ≠ [] ∧ (∀ v ∈ vals, v.1 = false) ∧ text value = text (firstValue vals)
  | some (.multi values) =>
    vals ≠ [] ∧ (∀ v ∈ vals, v.1 = true) ∧
      values.length = (vals.map fun v => text v.2).dedup.length ∧ ∀ v ∈ vals, isTrue v.2 = true
  | some (.misplaced _) => False

/-- An entry with the right types, names, single values and numbers of values. -/
def LooksLikeEntry (rows : List Row) (key : Key) (a : Attributes) : Prop :=
  a.Filled ∧ ∀ type name, LooksRight (valuesOf rows key type name) (a.get type name)

variable {rows : List Row} {row : Row} {key key' : Key} {type name type' name' : String}
  {attributes store : Store} {a : Attributes} {vals : List (Bool × Option String)} {m : Bool}
  {v : Option String}

/-! ## The values of an attribute -/

@[simp] theorem key_rewrite (row : Row) : (rewrite row).key = row.key := by
  unfold rewrite splitName Row.key
  dsimp only
  split_ifs <;> rfl

theorem valuesOf_concat : valuesOf (rows ++ [row]) key type name =
    valuesOf rows key type name ++ ((rewrite row).valueFor key type name).toList := by
  rw [valuesOf, List.filterMap_append]
  cases h : (rewrite row).valueFor key type name <;> simp [valuesOf, h]

/-- The different values, as they are pushed. -/
def distinct (values : List (Option String)) : List (Option String) := values.foldl pushNew []

theorem distinct_concat (values : List (Option String)) :
    distinct (values ++ [v]) = pushNew (distinct values) v := by
  rw [distinct, List.foldl_append]
  rfl

variable {values : List (Option String)} {attr hp types : Attributes}

theorem mem_map_text_pushNew {t : String} :
    t ∈ (pushNew values v).map text ↔ t ∈ values.map text ∨ t = text v := by
  unfold pushNew
  split_ifs with h
  · obtain ⟨value, hvalue, heq⟩ := List.any_eq_true.mp h
    refine ⟨.inl, fun ht => ht.elim id ?_⟩
    rintro rfl
    exact List.mem_map.mpr ⟨value, hvalue, of_decide_eq_true heq⟩
  · simp

theorem nodup_map_text_pushNew (h : (values.map text).Nodup) :
    ((pushNew values v).map text).Nodup := by
  unfold pushNew
  split_ifs with hany
  · exact h
  · rw [List.map_append, List.nodup_append]
    refine ⟨h, List.nodup_singleton _, ?_⟩
    simp only [List.mem_map, List.map_singleton, List.mem_singleton]
    rintro t ⟨value, hvalue, rfl⟩ t' rfl heq
    exact hany (List.any_eq_true.mpr ⟨value, hvalue, decide_eq_true heq⟩)

theorem distinct_perm (values : List (Option String)) :
    ((distinct values).map text).Perm (values.map text).dedup := by
  have h : ((distinct values).map text).Nodup ∧
      ∀ t, t ∈ (distinct values).map text ↔ t ∈ values.map text := by
    induction values using List.reverseRecOn with
    | nil => exact ⟨List.nodup_nil, fun t => Iff.rfl⟩
    | append_singleton values v ih =>
      rw [distinct_concat]
      refine ⟨nodup_map_text_pushNew ih.1, fun t => ?_⟩
      rw [mem_map_text_pushNew, ih.2]
      simp
  refine (List.perm_ext_iff_of_nodup h.1 (List.nodup_dedup _)).mpr fun t => ?_
  rw [h.2, List.mem_dedup]

/-- What the loop makes of the values. -/
def built : List (Bool × Option String) → Option Attribute
  | [] => none
  | (m, v) :: vals =>
    some (if m then .multi (distinct (((m, v) :: vals).map Prod.snd))
      else .single (firstValue ((m, v) :: vals)))

/-- The rows of an attribute are all of one kind. -/
def OneKind (vals : List (Bool × Option String)) : Prop :=
  (∀ v ∈ vals, v.1 = false) ∨ ∀ v ∈ vals, v.1 = true

theorem OneKind.eq_of_mem (h : OneKind vals) {x y : Bool × Option String} (hx : x ∈ vals)
    (hy : y ∈ vals) : x.1 = y.1 := by
  rcases h with h | h <;> rw [h x hx, h y hy]

theorem firstValue_singleton : firstValue [(m, v)] = v := by
  cases v <;> rfl

theorem addValue_built (h : OneKind (vals ++ [(m, v)])) :
    ∃ x, addValue m v (built vals) = .ok x ∧ built (vals ++ [(m, v)]) = some x := by
  match vals with
  | [] =>
    refine ⟨_, rfl, ?_⟩
    rw [List.nil_append, built, firstValue_singleton]
    rfl
  | (m', v') :: vals =>
    have hm : m' = m := h.eq_of_mem (x := (m', v')) (y := (m, v)) (by simp) (by simp)
    subst hm
    rw [List.cons_append, built, built]
    cases m' with
    | true =>
      refine ⟨_, rfl, ?_⟩
      rw [if_pos rfl, if_pos rfl, ← List.cons_append, List.map_append, List.map_singleton,
        distinct_concat]
    | false =>
      have hfirst : firstValue ((false, v') :: (vals ++ [(false, v)])) =
          (firstValue ((false, v') :: vals)).or v := by
        rw [← List.cons_append, firstValue, List.findSome?_append]
        exact congrArg _ firstValue_singleton
      rw [if_neg Bool.false_ne_true, if_neg Bool.false_ne_true, hfirst]
      cases hval : firstValue ((false, v') :: vals) with
      | none => exact ⟨_, rfl, by rw [Option.none_or]; rfl⟩
      | some value => exact ⟨_, rfl, rfl⟩

theorem map_text_snd (vals : List (Bool × Option String)) :
    (vals.map fun x => text x.2) = (vals.map Prod.snd).map text := by
  rw [List.map_map]
  rfl

theorem isRight_built (h : OneKind vals) : IsRight vals (built vals) := by
  match vals with
  | [] => rfl
  | (true, v) :: vals =>
    refine ⟨List.cons_ne_nil _ _, fun x hx => (h.eq_of_mem hx List.mem_cons_self), ?_⟩
    rw [map_text_snd]
    exact distinct_perm _
  | (false, v) :: vals =>
    exact ⟨List.cons_ne_nil _ _, fun x hx => h.eq_of_mem hx List.mem_cons_self, rfl⟩

theorem oneKind_of_isRight {attr : Option Attribute} (h : IsRight vals attr) : OneKind vals := by
  match attr with
  | none =>
    obtain rfl : vals = [] := h
    exact .inl fun _ hv => absurd hv List.not_mem_nil
  | some (.single _) => exact .inl h.2.1
  | some (.multi _) => exact .inr h.2.1
  | some (.misplaced _) => exact h.elim

theorem built_eq_none : built vals = none ↔ vals = [] := by
  cases vals with
  | nil => simp [built]
  | cons v vals => simp [built]

/-! ## What the comparison sees -/

theorem isTrue_eq_of_text {x y : Option String} (h : text x = text y) : isTrue x = isTrue y := by
  rw [isTrue, isTrue, h]

/-- Of the values of a list only their number is compared, and whether they are true. -/
theorem changedAttribute_multi {ws : List (Option String)} (hne : values ≠ []) :
    changedAttribute (.multi ws) (.multi values) = false ↔
      ws.length = values.length ∧ ∀ w ∈ values, isTrue w = true := by
  rw [changedAttribute, Bool.or_eq_false_iff, List.any_eq_false]
  have hlen : values.length ≠ 0 := fun h => hne (List.length_eq_zero_iff.mp h)
  constructor
  · rintro ⟨hcount, hall⟩
    have heq : values.length = ws.length := by simpa using hcount
    refine ⟨heq.symm, fun w hw => ?_⟩
    cases htrue : isTrue w with
    | true => rfl
    | false => exact absurd (by simp [htrue]) (hall w hw)
  · rintro ⟨heq, hall⟩
    refine ⟨by simp [heq], fun w hw => ?_⟩
    simp [hall w hw, heq, hlen]

theorem length_distinct (vals : List (Bool × Option String)) :
    (distinct (vals.map Prod.snd)).length = (vals.map fun v => text v.2).dedup.length := by
  rw [map_text_snd, ← (distinct_perm _).length_eq, List.length_map]

theorem isTrue_distinct_iff (vals : List (Bool × Option String)) :
    (∀ w ∈ distinct (vals.map Prod.snd), isTrue w = true) ↔ ∀ v ∈ vals, isTrue v.2 = true := by
  have hmem : ∀ t, t ∈ (distinct (vals.map Prod.snd)).map text ↔
      t ∈ vals.map fun v => text v.2 := by
    intro t
    rw [(distinct_perm _).mem_iff, List.mem_dedup, map_text_snd]
  constructor
  · intro h v hv
    obtain ⟨w, hw, heq⟩ := List.mem_map.mp ((hmem _).mpr (List.mem_map_of_mem hv))
    rw [← isTrue_eq_of_text heq]
    exact h w hw
  · intro h w hw
    obtain ⟨v, hv, heq⟩ := List.mem_map.mp ((hmem _).mp (List.mem_map_of_mem hw))
    rw [← isTrue_eq_of_text heq]
    exact h v hv

theorem distinct_ne_nil {v : Bool × Option String} :
    distinct ((v :: vals).map Prod.snd) ≠ [] := by
  intro hnil
  have hperm := distinct_perm ((v :: vals).map Prod.snd)
  rw [hnil] at hperm
  have hmem : text v.2 ∈ (((v :: vals).map Prod.snd).map text).dedup := by simp
  simpa using hperm.mem_iff.mpr hmem

/-- Some values look right when the comparison with the right attribute sees no change. -/
theorem looksRight_cons {v : Bool × Option String} {hp attr : Attribute}
    (h : OneKind (v :: vals)) (hattr : built (v :: vals) = some attr) :
    LooksRight (v :: vals) (some hp) ↔ changedAttribute hp attr = false := by
  have hall : ∀ x ∈ v :: vals, x.1 = v.1 := fun x hx => h.eq_of_mem hx List.mem_cons_self
  have hne : v :: vals ≠ [] := List.cons_ne_nil v vals
  obtain ⟨m, w⟩ := v
  rw [built, Option.some_inj] at hattr
  subst hattr
  cases m with
  | true =>
    rw [if_pos rfl]
    cases hp with
    | single value =>
      refine iff_of_false (fun hlooks => ?_) Bool.noConfusion
      exact Bool.noConfusion (hlooks.2.1 _ List.mem_cons_self)
    | multi values =>
      rw [changedAttribute_multi distinct_ne_nil, length_distinct, isTrue_distinct_iff]
      exact ⟨fun hlooks => hlooks.2.2, fun hlooks => ⟨hne, hall, hlooks⟩⟩
    | misplaced values => exact iff_of_false id Bool.noConfusion
  | false =>
    rw [if_neg Bool.false_ne_true]
    cases hp with
    | single value =>
      rw [changedAttribute, decide_eq_false_iff_not, ne_eq, not_not]
      exact ⟨fun hlooks => hlooks.2.2, fun heq => ⟨hne, hall, heq⟩⟩
    | multi values =>
      refine iff_of_false (fun hlooks => ?_) Bool.noConfusion
      exact Bool.noConfusion (hlooks.2.1 _ List.mem_cons_self)
    | misplaced values => exact iff_of_false id Bool.noConfusion

/-- An attribute looks right when the comparison with the right one sees no change. -/
theorem looksRight_iff (h : OneKind vals) {attr : Option Attribute} : LooksRight vals attr ↔
    Option.Rel (fun hpattr attr => changedAttribute hpattr attr = false) attr (built vals) := by
  cases attr with
  | none =>
    rw [LooksRight, ← built_eq_none]
    cases built vals <;> simp
  | some hp =>
    cases vals with
    | nil =>
      rw [built]
      cases hp <;> simp [LooksRight]
    | cons v vals =>
      obtain ⟨attr, hattr⟩ := Option.ne_none_iff_exists'.mp
        (mt built_eq_none.mp (List.cons_ne_nil v vals))
      rw [hattr, Option.rel_some_some]
      exact looksRight_cons h hattr

/-! ## Hashes -/

section Hash

variable {κ β : Type} [DecidableEq κ] {s t : AList fun _ : κ => β} {R : β → β → Prop}

/-- Hashes with as many keys, where every key of the second is one of the first. -/
theorem forall_rel_iff : (s.keys.length = t.keys.length ∧
      ∀ e ∈ t.entries, ∃ b, s.lookup e.1 = some b ∧ R b e.2) ↔
    ∀ k, Option.Rel R (s.lookup k) (t.lookup k) := by
  constructor
  · rintro ⟨hlen, hall⟩ k
    have hsub : t.keys ⊆ s.keys := by
      intro k hk
      obtain ⟨e, he, rfl⟩ := List.mem_map.mp hk
      obtain ⟨b, hb, -⟩ := hall e he
      exact AList.lookup_isSome.mp (by rw [hb]; rfl)
    have hperm := (List.subperm_of_subset t.keys_nodup hsub).perm_of_length_le (Nat.le_of_eq hlen)
    cases ht : t.lookup k with
    | none =>
      have hs : s.lookup k = none := AList.lookup_eq_none.mpr fun hmem =>
        AList.lookup_eq_none.mp ht (hperm.mem_iff.mpr hmem)
      rw [hs]
      exact .none
    | some e =>
      obtain ⟨b, hb, hR⟩ := hall ⟨k, e⟩ (AList.mem_lookup_iff.mp ht)
      rw [show s.lookup k = some b from hb]
      exact .some hR
  · intro hrel
    have hkeys : ∀ k, k ∈ s.keys ↔ k ∈ t.keys := by
      intro k
      have hk := hrel k
      rw [← AList.mem_keys, ← AList.mem_keys, ← AList.lookup_isSome, ← AList.lookup_isSome]
      cases hs : s.lookup k <;> cases ht : t.lookup k <;> simp_all
    refine ⟨((List.perm_ext_iff_of_nodup s.keys_nodup t.keys_nodup).mpr hkeys).length_eq, ?_⟩
    intro e he
    have hk := hrel e.1
    rw [show t.lookup e.1 = some e.2 from AList.mem_lookup_iff.mpr he] at hk
    cases hs : s.lookup e.1 with
    | none => rw [hs] at hk; cases hk
    | some b =>
      rw [hs] at hk
      exact ⟨b, rfl, Option.rel_some_some.mp hk⟩

/-- A comparison that looks at the keys of the second hash in the first. -/
theorem compare_eq_false_iff {f : β → β → Bool} {p : (Σ _ : κ, β) → Bool}
    (hp : ∀ e, p e = false ↔ ∃ b, s.lookup e.1 = some b ∧ f b e.2 = false) :
    (decide (s.keys.length ≠ t.keys.length) || t.entries.any p) = false ↔
      ∀ k, Option.Rel (fun b e => f b e = false) (s.lookup k) (t.lookup k) := by
  rw [← forall_rel_iff, Bool.or_eq_false_iff, List.any_eq_false]
  refine and_congr (by simp) (forall₂_congr fun e _ => ?_)
  rw [Bool.not_eq_true, hp]

end Hash

theorem changedNames_eq_false_iff {hp attr : Names} : changedNames hp attr = false ↔
    ∀ name, Option.Rel (fun h e => changedAttribute h e = false) (hp.lookup name)
      (attr.lookup name) := by
  refine compare_eq_false_iff (f := changedAttribute) fun e => ?_
  cases hp.lookup e.1 <;> simp

theorem changed_eq_false_iff : changed hp attr = false ↔
    ∀ type, Option.Rel (fun h e => changedNames h e = false) (hp.lookup type)
      (attr.lookup type) := by
  refine compare_eq_false_iff (f := changedNames) fun e => ?_
  cases hp.lookup e.1 <;> simp

/-- The entry that the rows make, where no attribute is mixed. -/
structure IsBuilt (rows : List Row) (key : Key) (attr : Attributes) : Prop where
  filled : attr.Filled
  get : ∀ type name, attr.get type name = built (valuesOf rows key type name)

theorem get_of_lookup {names : Names} (h : hp.lookup type = some names) :
    hp.get type name = names.lookup name := by
  rw [Attributes.get, h, Option.bind_some]

theorem get_of_lookup_none (h : hp.lookup type = none) :
    hp.get type name = none := by
  rw [Attributes.get, h, Option.bind_none]

theorem lookup_getD : ((hp.lookup type).getD ∅).lookup name = hp.get type name := by
  rw [Attributes.get]
  cases hp.lookup type <;> rfl

theorem Attributes.Filled.exists_get {names : Names} (h : hp.Filled)
    (hnames : hp.lookup type = some names) : ∃ name x, hp.get type name = some x := by
  obtain ⟨name, hname⟩ := h type names hnames
  obtain ⟨x, hx⟩ := Option.isSome_iff_exists.mp (AList.lookup_isSome.mpr hname)
  exact ⟨name, x, (get_of_lookup hnames).trans hx⟩

/-- Two entries agree in their attributes when they agree type by type. -/
theorem forall_get_rel_iff {R : Attribute → Attribute → Prop} (hattr : attr.Filled) :
    (hp.Filled ∧ ∀ type name, Option.Rel R (hp.get type name) (attr.get type name)) ↔
      ∀ type, Option.Rel (fun h e => ∀ name, Option.Rel R (h.lookup name) (e.lookup name))
        (hp.lookup type) (attr.lookup type) := by
  constructor
  · rintro ⟨hhp, hrel⟩ type
    cases h : hp.lookup type with
    | none =>
      cases h' : attr.lookup type with
      | none => exact .none
      | some names =>
        obtain ⟨name, x, hx⟩ := hattr.exists_get h'
        have hname := hrel type name
        rw [get_of_lookup_none h, hx] at hname
        cases hname
    | some hpnames =>
      cases h' : attr.lookup type with
      | none =>
        obtain ⟨name, x, hx⟩ := hhp.exists_get h
        have hname := hrel type name
        rw [get_of_lookup_none h', hx] at hname
        cases hname
      | some names =>
        refine .some fun name => ?_
        rw [← get_of_lookup h, ← get_of_lookup h']
        exact hrel type name
  · intro hrel
    have hget : ∀ type name, Option.Rel R (hp.get type name) (attr.get type name) := by
      intro type name
      have htype := hrel type
      cases h : hp.lookup type with
      | none =>
        cases h' : attr.lookup type with
        | none =>
          rw [get_of_lookup_none h, get_of_lookup_none h']
          exact .none
        | some names => rw [h, h'] at htype; cases htype
      | some hpnames =>
        cases h' : attr.lookup type with
        | none => rw [h, h'] at htype; cases htype
        | some names =>
          rw [h, h', Option.rel_some_some] at htype
          rw [get_of_lookup h, get_of_lookup h']
          exact htype name
    refine ⟨fun type hpnames h => ?_, hget⟩
    have htype := hrel type
    cases h' : attr.lookup type with
    | none => rw [h, h'] at htype; cases htype
    | some names =>
      obtain ⟨name, x, hx⟩ := hattr.exists_get h'
      have hname := hget type name
      rw [get_of_lookup h, hx] at hname
      refine ⟨name, AList.lookup_isSome.mp ?_⟩
      cases hlookup : hpnames.lookup name with
      | none => rw [hlookup] at hname; cases hname
      | some y => rfl

/-- **An entry looks right exactly when no change is seen.** -/
theorem IsBuilt.looksLikeEntry_iff (h : IsBuilt rows key attr)
    (hkind : ∀ type name, OneKind (valuesOf rows key type name)) :
    LooksLikeEntry rows key hp ↔ changed hp attr = false := by
  rw [LooksLikeEntry, changed_eq_false_iff]
  simp only [changedNames_eq_false_iff]
  rw [← forall_get_rel_iff h.filled]
  refine and_congr_right fun _ => forall₂_congr fun type name => ?_
  rw [h.get]
  exact looksRight_iff (hkind type name)

/-! ## The loop over the rows -/

theorem Unmixed.oneKind (h : Unmixed rows) (key : Key) (type name : String) :
    OneKind (valuesOf rows key type name) :=
  h key type name

theorem Unmixed.of_concat (h : Unmixed (rows ++ [row])) : Unmixed rows := by
  intro key type name
  have hsub : ∀ v ∈ valuesOf rows key type name, v ∈ valuesOf (rows ++ [row]) key type name := by
    intro v hv
    rw [valuesOf_concat]
    exact List.mem_append_left _ hv
  exact (h key type name).imp (fun hall v hv => hall v (hsub v hv))
    fun hall v hv => hall v (hsub v hv)

theorem valueFor_of_ne (h : row.key ≠ key) : (rewrite row).valueFor key type name = none := by
  rw [Row.valueFor, key_rewrite, if_neg fun hand => h hand.1]

theorem valuesOf_eq_nil (h : ∀ row ∈ rows, row.key ≠ key) : valuesOf rows key type name = [] :=
  List.filterMap_eq_nil_iff.mpr fun row hrow => valueFor_of_ne (h row hrow)

theorem get_insert {x : Attribute} :
    Attributes.get (types.insert type (((types.lookup type).getD ∅).insert name x)) type' name' =
      if type' = type ∧ name' = name then some x else types.get type' name' := by
  by_cases htype : type' = type
  · subst htype
    rw [get_of_lookup (AList.lookup_insert types)]
    by_cases hname : name' = name
    · subst hname
      rw [AList.lookup_insert, if_pos ⟨rfl, rfl⟩]
    · rw [AList.lookup_insert_ne hname, if_neg fun hand => hname hand.2, Attributes.get]
      cases types.lookup type' <;> rfl
  · rw [Attributes.get, AList.lookup_insert_ne htype, if_neg fun hand => htype hand.1]
    rfl

/-- What the loop has made of the rows. -/
structure Collected (rows : List Row) (attributes : Store) : Prop where
  keys : ∀ key, key ∈ attributes ↔ ∃ row ∈ rows, row.key = key
  built : ∀ key attr, attributes.lookup key = some attr → IsBuilt rows key attr

theorem Collected.isBuilt (h : Collected rows attributes) (key : Key) :
    IsBuilt rows key ((attributes.lookup key).getD ∅) := by
  cases hlookup : attributes.lookup key with
  | some attr => exact h.built key attr hlookup
  | none =>
    refine ⟨fun type names hnames => (by cases hnames), fun type name => ?_⟩
    rw [valuesOf_eq_nil fun row hrow hkey => ?_]
    · rfl
    · exact AList.lookup_eq_none.mp hlookup ((h.keys key).mpr ⟨row, hrow, hkey⟩)

theorem IsBuilt.insert (h : IsBuilt rows row.key types) {x : Attribute}
    (hx : built (valuesOf (rows ++ [row]) row.key (rewrite row).proptype (rewrite row).propname) =
      some x) :
    IsBuilt (rows ++ [row]) row.key (types.insert (rewrite row).proptype
      (((types.lookup (rewrite row).proptype).getD ∅).insert (rewrite row).propname x)) := by
  constructor
  · intro type names hnames
    by_cases htype : type = (rewrite row).proptype
    · subst htype
      rw [AList.lookup_insert, Option.some_inj] at hnames
      subst hnames
      exact ⟨(rewrite row).propname, AList.mem_insert _ |>.mpr (.inl rfl)⟩
    · rw [AList.lookup_insert_ne htype] at hnames
      exact h.filled type names hnames
  · intro type name
    rw [get_insert]
    split_ifs with hand
    · obtain ⟨rfl, rfl⟩ := hand
      exact hx.symm
    · rw [h.get, valuesOf_concat, Row.valueFor,
        if_neg fun hall => hand ⟨hall.2.1.symm, hall.2.2.symm⟩, Option.toList_none, List.append_nil]

theorem Collected.addRow (h : Collected rows attributes) (hunmixed : Unmixed (rows ++ [row])) :
    ∃ s, addRow attributes row = .ok s ∧ Collected (rows ++ [row]) s := by
  have hkey : ((rewrite row).login, (rewrite row).devcollid) = row.key := key_rewrite row
  have hbuilt := h.isBuilt row.key
  have hvalues : valuesOf (rows ++ [row]) row.key (rewrite row).proptype (rewrite row).propname =
      valuesOf rows row.key (rewrite row).proptype (rewrite row).propname ++
        [((rewrite row).multivalue, (rewrite row).propval)] := by
    rw [valuesOf_concat, Row.valueFor, if_pos ⟨key_rewrite row, rfl, rfl⟩]
    rfl
  obtain ⟨x, hadd, hx⟩ := addValue_built (hvalues ▸ hunmixed.oneKind _ _ _)
  rw [← hbuilt.get, ← lookup_getD] at hadd
  rw [← hvalues] at hx
  have hrun : RadiusSync.addRow attributes row = .ok (attributes.insert row.key
      (((attributes.lookup row.key).getD ∅).insert (rewrite row).proptype
        (((((attributes.lookup row.key).getD ∅).lookup (rewrite row).proptype).getD ∅).insert
          (rewrite row).propname x))) := by
    rw [RadiusSync.addRow, hkey, hadd]
    rfl
  refine ⟨_, hrun, ?_⟩
  constructor
  · intro key
    rw [AList.mem_insert, h.keys]
    simp [or_comm, eq_comm]
  · intro key attr hattr
    by_cases hk : key = row.key
    · subst hk
      rw [AList.lookup_insert, Option.some_inj] at hattr
      subst hattr
      exact hbuilt.insert hx
    · rw [AList.lookup_insert_ne hk] at hattr
      refine ⟨(h.built key attr hattr).filled, fun type name => ?_⟩
      rw [(h.built key attr hattr).get, valuesOf_concat, valueFor_of_ne (Ne.symm hk)]
      exact congrArg _ (List.append_nil _).symm

theorem collect_ok (h : Unmixed rows) : ∃ s, collect rows = .ok s ∧ Collected rows s := by
  induction rows using List.reverseRecOn with
  | nil =>
    refine ⟨∅, rfl, fun key => ?_, fun key attr hattr => by cases hattr⟩
    simp
  | append_singleton rows row ih =>
    obtain ⟨s, hs, hcollected⟩ := ih h.of_concat
    obtain ⟨s', hs', hcollected'⟩ := hcollected.addRow h
    refine ⟨s', ?_, hcollected'⟩
    rw [collect, List.foldlM_append, show rows.foldlM RadiusSync.addRow ∅ = .ok s from hs]
    show (RadiusSync.addRow s row >>= pure) = _
    rw [bind_pure, hs']

/-! ## The loops over the keys -/

theorem lookup_syncKey {e : Σ _ : Key, Attributes} :
    (syncKey store e).lookup key =
      if key = e.1 then some (syncEntry e.2 (store.lookup e.1)) else store.lookup key := by
  unfold syncKey
  by_cases hkey : key = e.1
  · subst hkey
    rw [if_pos rfl]
    cases hlookup : store.lookup e.1 with
    | none => rw [AList.lookup_insert, syncEntry]
    | some hpattr =>
      rw [syncEntry]
      dsimp only
      split_ifs with hchanged
      · exact AList.lookup_insert store
      · exact hlookup
  · rw [if_neg hkey]
    cases hlookup : store.lookup e.1 with
    | none => exact AList.lookup_insert_ne hkey
    | some hpattr =>
      dsimp only
      split_ifs with hchanged
      · exact AList.lookup_insert_ne hkey
      · rfl

theorem lookup_foldl_syncKey {l : List (Σ _ : Key, Attributes)} (hl : l.NodupKeys) :
    (l.foldl syncKey store).lookup key =
      match l.dlookup key with
      | none => store.lookup key
      | some attr => some (syncEntry attr (store.lookup key)) := by
  induction l generalizing store with
  | nil => rfl
  | cons e l ih =>
    rw [List.nodupKeys_cons] at hl
    rw [List.foldl_cons, ih hl.2, lookup_syncKey]
    by_cases hkey : key = e.1
    · subst hkey
      rw [List.dlookup_eq_none.mpr hl.1, if_pos rfl, List.dlookup_cons_eq]
    · rw [if_neg hkey, List.dlookup_cons_ne _ _ hkey]

theorem lookup_foldl_deleteKey {l : List Key} :
    (l.foldl (deleteKey attributes) store).lookup key =
      if key ∈ l ∧ key ∉ attributes then none else store.lookup key := by
  induction l generalizing store with
  | nil => simp
  | cons k l ih =>
    rw [List.foldl_cons, ih, deleteKey]
    by_cases hk : k ∈ attributes
    · rw [if_pos hk]
      refine if_congr ?_ rfl rfl
      rw [List.mem_cons]
      constructor
      · exact fun h => ⟨.inr h.1, h.2⟩
      · rintro ⟨rfl | hmem, hnot⟩
        · exact absurd hk hnot
        · exact ⟨hmem, hnot⟩
    · rw [if_neg hk]
      by_cases hkey : key = k
      · subst hkey
        simp [hk, AList.lookup_erase]
      · simp [hkey, AList.lookup_erase_ne hkey]

/-- **What the server has for a key after the loops.** -/
theorem lookup_syncAttributes : (syncAttributes attributes store).lookup key =
    (attributes.lookup key).map fun attr => syncEntry attr (store.lookup key) := by
  rw [syncAttributes, lookup_foldl_deleteKey]
  have hsync : (attributes.entries.foldl syncKey store).lookup key =
      match attributes.lookup key with
      | none => store.lookup key
      | some attr => some (syncEntry attr (store.lookup key)) :=
    lookup_foldl_syncKey attributes.nodupKeys
  cases hattr : attributes.lookup key with
  | some attr =>
    rw [hattr] at hsync
    have hmem : key ∈ attributes := AList.lookup_isSome.mp (by rw [hattr]; rfl)
    rw [if_neg fun h => h.2 hmem, hsync, Option.map_some]
  | none =>
    rw [hattr] at hsync
    rw [Option.map_none]
    split_ifs with h
    · rfl
    · rw [← AList.mem_keys, ← AList.lookup_isSome, ← AList.lookup_eq_none] at h
      cases hlookup : (attributes.entries.foldl syncKey store).lookup key with
      | none => rfl
      | some x => exact absurd ⟨by rw [hlookup]; rfl, hattr⟩ h

/-! ## When the store is right -/

/-- **The store is right afterwards exactly when no attribute is mixed and no entry that looks right
is wrong.** -/
theorem synced_iff (rows : List Row) (store : Store) : Synced rows (radiussync rows store) ↔
    Unmixed rows ∧ ∀ row ∈ rows, ∀ old, store.lookup row.key = some old →
      LooksLikeEntry rows row.key old → IsEntry rows row.key old := by
  constructor
  · intro h
    have hunmixed : Unmixed rows := by
      intro key type name
      by_cases hkey : ∃ row ∈ rows, row.key = key
      · obtain ⟨a, -, hentry⟩ := (h key).1 hkey
        exact oneKind_of_isRight (hentry.2 type name)
      · refine .inl fun v hv => ?_
        rw [valuesOf_eq_nil fun row hrow heq => hkey ⟨row, hrow, heq⟩] at hv
        exact absurd hv List.not_mem_nil
    refine ⟨hunmixed, fun row hrow old hold hlooks => ?_⟩
    obtain ⟨attributes, hcollect, hcollected⟩ := collect_ok hunmixed
    obtain ⟨attr, hattr⟩ := Option.isSome_iff_exists.mp
      (AList.lookup_isSome.mpr ((hcollected.keys row.key).mpr ⟨row, hrow, rfl⟩))
    obtain ⟨a, ha, hentry⟩ := (h row.key).1 ⟨row, hrow, rfl⟩
    have hsame := ((hcollected.built _ _ hattr).looksLikeEntry_iff
      (hunmixed.oneKind row.key)).mp hlooks
    rw [radiussync, hcollect] at ha
    dsimp only at ha
    rw [lookup_syncAttributes, hattr, hold, Option.map_some, Option.some_inj, syncEntry, hsame,
      if_neg Bool.false_ne_true] at ha
    rwa [ha]
  · rintro ⟨hunmixed, hold⟩ key
    obtain ⟨attributes, hcollect, hcollected⟩ := collect_ok hunmixed
    rw [radiussync, hcollect]
    dsimp only
    rw [lookup_syncAttributes]
    constructor
    · rintro ⟨row, hrow, rfl⟩
      obtain ⟨attr, hattr⟩ := Option.isSome_iff_exists.mp
        (AList.lookup_isSome.mpr ((hcollected.keys row.key).mpr ⟨row, hrow, rfl⟩))
      have hbuilt := hcollected.built _ _ hattr
      have hentry : IsEntry rows row.key attr := by
        refine ⟨hbuilt.filled, fun type name => ?_⟩
        rw [hbuilt.get]
        exact isRight_built (hunmixed.oneKind _ _ _)
      rw [hattr]
      refine ⟨_, rfl, ?_⟩
      cases hlookup : store.lookup row.key with
      | none => exact hentry
      | some old =>
        show IsEntry rows row.key (if changed old attr then attr else old)
        split_ifs with hchanged
        · exact hentry
        · refine hold row hrow old hlookup ?_
          exact (hbuilt.looksLikeEntry_iff (hunmixed.oneKind _)).mpr
            (Bool.eq_false_iff.mpr hchanged)
    · intro hkey
      have hnone : attributes.lookup key = none := AList.lookup_eq_none.mpr fun hmem => by
        obtain ⟨row, hrow, heq⟩ := (hcollected.keys key).mp hmem
        exact hkey row hrow heq
      rw [hnone, Option.map_none]

/-! ## A stale group -/

/-- Alice is in one group. -/
def admins : List Row := [⟨"alice", "Group", "RADIUS", some "admin", true, false, 5⟩]

/-- The entry from when she was in another one. -/
def operators : Attributes :=
  AList.singleton "RADIUS" (AList.singleton "Group" (.multi [some "oper"]))

/-- The server keeps the old group. -/
theorem not_synced_group :
    ¬ Synced admins (radiussync admins (AList.singleton ("alice", 5) operators)) := by
  intro hsynced
  obtain ⟨a, ha, -, hright⟩ := (hsynced ("alice", 5)).1 ⟨_, List.mem_cons_self, rfl⟩
  have hkept : ((radiussync admins (AList.singleton ("alice", 5) operators)).lookup
      ("alice", 5)).bind (fun a => a.get "RADIUS" "Group") = some (.multi [some "oper"]) := by decide
  rw [ha, Option.bind_some] at hkept
  have hgroup := hright "RADIUS" "Group"
  rw [hkept] at hgroup
  have hvalues : (["oper"] : List String).Perm ["admin"] := hgroup.2.2
  exact absurd (List.perm_singleton.mp hvalues) (by decide)

end RadiusSync
end JazzHands.Hotpants
