import JazzHands.Property.Checked
import JazzHands.Property.PropertyTriggers

/-!
# Which statements keep properties valid

`Sound`: the keys hold, and every row would be accepted as it is.  Each of the four kinds of
statements keeps this when the triggers look at what it changes (`Guarded`), and `sound_run` carries
it over runs.  Past the triggers slip changes of definitions for which the properties that are there
would have to be looked at.
-/

namespace JazzHands.Property

open Library Postgres RowStatement

variable {J : Type}

/-! ## Definitions that are accepted -/

/-- The column of a restricted type may be set, or values are of the restricted kind. -/
def Restricted.Allowed (v : ValProperty J) : Restricted → Prop
  | accountCollection => v.permitAccountCollectionId ≠ .PROHIBITED
  | companyCollection => v.permitCompanyCollectionId ≠ .PROHIBITED
  | deviceCollection => v.permitDeviceCollectionId ≠ .PROHIBITED
  | dnsDomainCollection => v.permitDnsDomainCollectionId ≠ .PROHIBITED
  | layer2NetworkCollection => v.permitLayer2NetworkCollectionId ≠ .PROHIBITED
  | layer3NetworkCollection => v.permitLayer3NetworkCollectionId ≠ .PROHIBITED
  | netblockCollection => v.permitNetblockCollectionId ≠ .PROHIBITED
  | networkRange => v.permitNetworkRangeId ≠ .PROHIBITED
  | propertyNameCollection => v.permitPropertyNameCollectionId ≠ .PROHIBITED
  | serviceEnvironmentCollection => v.permitServiceEnvironmentCollectionId ≠ .PROHIBITED
  | serviceVersionCollection => v.permitServiceVersionCollectionId ≠ .PROHIBITED
  | valueAccountCollection => v.propertyDataType = .accountCollectionId
  | valueDeviceCollection => v.propertyDataType = .deviceCollectionId
  | valueNetblockCollection => v.propertyDataType = .netblockCollectionId
  | valueServiceVersionCollection => v.propertyDataType = .serviceVersionCollectionId

/-- Types are restricted where they may be. -/
def TypesAllowed (v : ValProperty J) : Prop := ∀ r : Restricted, r.type v ≠ none → r.Allowed v

variable {v : ValProperty J}

theorem validateValProperty_eq_ok : validateValProperty v = .ok () ↔
    (v.propertyDataType = .json ↔ v.propertyValueJsonSchema ≠ none) ∧ TypesAllowed v := by
  simp only [validateValProperty, bind_unit_eq_ok, checkProhibited, checkRestriction,
    raiseIf_eq_ok, not_and]
  constructor
  · rintro ⟨hjson, hschema, haccount, hcompany, hdevice, hdns, hlayer2, hlayer3, hnetblock, hrange,
      hname, henvironment, hversion, haccount', hdevice', hnetblock', hversion'⟩
    refine ⟨⟨hjson, fun h => by_contra fun hne => hschema hne h⟩, fun r hr => ?_⟩
    cases r with
    | accountCollection => exact haccount hr
    | companyCollection => exact hcompany hr
    | deviceCollection => exact hdevice hr
    | dnsDomainCollection => exact hdns hr
    | layer2NetworkCollection => exact hlayer2 hr
    | layer3NetworkCollection => exact hlayer3 hr
    | netblockCollection => exact hnetblock hr
    | networkRange => exact hrange hr
    | propertyNameCollection => exact hname hr
    | serviceEnvironmentCollection => exact henvironment hr
    | serviceVersionCollection => exact hversion hr
    | valueAccountCollection => exact not_not.mp (haccount' hr)
    | valueDeviceCollection => exact not_not.mp (hdevice' hr)
    | valueNetblockCollection => exact not_not.mp (hnetblock' hr)
    | valueServiceVersionCollection => exact not_not.mp (hversion' hr)
  · rintro ⟨hschema, h⟩
    exact ⟨hschema.mp, fun hne hset => hne (hschema.mpr hset), h .accountCollection,
      h .companyCollection, h .deviceCollection, h .dnsDomainCollection,
      h .layer2NetworkCollection, h .layer3NetworkCollection, h .netblockCollection,
      h .networkRange, h .propertyNameCollection, h .serviceEnvironmentCollection,
      h .serviceVersionCollection, fun hr => not_not.mpr (h .valueAccountCollection hr),
      fun hr => not_not.mpr (h .valueDeviceCollection hr),
      fun hr => not_not.mpr (h .valueNetblockCollection hr),
      fun hr => not_not.mpr (h .valueServiceVersionCollection hr)⟩

variable [DecidableEq J] (validateJsonSchema : Option J → Option J → Result Bool)

/-- The keys, and every row as it would be accepted. -/
structure Sound (db : Db J) : Prop where
  definitionKey : (db.valProperty.map ValProperty.key).Nodup
  typeKey : (db.valPropertyType.map (·.propertyType)).Nodup
  property : ∀ p ∈ db.property, validateProperty validateJsonSchema db p = .ok ()
  definition : ∀ v ∈ db.valProperty, validateValProperty v = .ok ()

/-! ## What no trigger looks at -/

/-- An `UPDATE` that does not call the trigger leaves a type restricted where it may not be. -/
def SetsDisallowed (db : Db J) (named : Bool) (s : RowStatement (ValProperty J)) : Prop :=
  named = false ∧ ∃ old new, .update old new ∈ (ofNamed named s).events db.valProperty ∧
    ¬ TypesAllowed new

/-- Properties of a type are from now on alone on their left-hand side, and two are not. -/
def TurnsSingle (db : Db J) (s : RowStatement ValPropertyType) : Prop :=
  ∃ old new, .update old new ∈ s.events db.valPropertyType ∧ new.isMultivalue = false ∧
    ¬ (old.propertyType = new.propertyType ∧ old.isMultivalue = false) ∧
      ∃ p ∈ db.property, ∃ q ∈ db.property, q.propertyId ≠ p.propertyId ∧
        p.propertyType = new.propertyType ∧ q.propertyType = p.propertyType ∧ q.lhs = p.lhs

/-- A listed value gets another name, and a property has the old one. -/
def RenamesValue (db : Db J) (s : RowStatement ValPropertyValue) : Prop :=
  ∃ old new, .update old new ∈ s.events db.valPropertyValue ∧ new ≠ old ∧
    ∃ p ∈ db.property, (∃ v ∈ db.definition p, v.propertyDataType = .list) ∧
      p.propertyName = old.propertyName ∧ p.propertyType = old.propertyType ∧
        p.rhs.propertyValue = some old.validPropertyValue

/-- The triggers look at what the statement changes. -/
def Guarded (db : Db J) : Statement J → Prop
  | .property _ => True
  | .valProperty named s => ¬ SetsDisallowed db named s
  | .valPropertyType s => ¬ TurnsSingle db s
  | .valPropertyValue s => ¬ RenamesValue db s

variable {validateJsonSchema} {db db' : Db J} {t : ValPropertyType} {p q : Row J}

/-! ## Acceptance -/

omit [DecidableEq J] in
theorem definition_eq_some (hkey : (db.valProperty.map ValProperty.key).Nodup) :
    db.definition p = some v ↔ v ∈ db.valProperty ∧ v.key = (p.propertyName, p.propertyType) := by
  constructor
  · intro h
    obtain ⟨hv, hname, htype⟩ := Library.of_find?_eq_some h
    exact ⟨hv, Prod.ext hname htype⟩
  · rintro ⟨hv, hp⟩
    have hfind := Library.find?_key hkey hv
    rw [hp] at hfind
    rw [← hfind]
    refine congrArg (db.valProperty.find? ·) (funext fun w => decide_eq_decide.mpr ?_)
    rw [ValProperty.key, Prod.mk.injEq]

omit [DecidableEq J] in
theorem typeOf_eq_some (hkey : (db.valPropertyType.map (·.propertyType)).Nodup) :
    db.typeOf p = some t ↔ t ∈ db.valPropertyType ∧ t.propertyType = p.propertyType := by
  constructor
  · exact Library.of_find?_eq_some
  · rintro ⟨ht, hp⟩
    have hfind := Library.find?_key hkey ht
    rw [hp] at hfind
    exact hfind

theorem accepted_iff : validateProperty validateJsonSchema db p = .ok () ↔
    ∃ v t, db.definition p = some v ∧ db.typeOf p = some t ∧
      Checked validateJsonSchema db v t p := by
  cases hv : db.definition p with
  | none => simp [validateProperty, hv]
  | some v =>
    cases ht : db.typeOf p with
    | none => simp [validateProperty, hv, ht]
    | some t =>
      rw [validateProperty_eq_ok hv ht]
      simp

omit [DecidableEq J] in
/-- The tables that the statements write leave the others. -/
theorem Checked.of_tables (h : Checked validateJsonSchema db v t p)
    (htable : ∀ r : Restricted, r.table db' = r.table db) (hunique : Unique db' v t p)
    (hlisted : Listed db' v p) : Checked validateJsonSchema db' v t p where
  unique := hunique
  value := h.value
  number := h.number
  listed := hlisted
  typed := fun r hr i found type hi hrow => h.typed r hr i found type hi (htable r ▸ hrow)
  networkRange := fun hset i found type hi hrow =>
    h.networkRange hset i found type hi (htable .networkRange ▸ hrow)
  json := h.json
  permitted := h.permitted

/-! ## Statements on properties -/

theorem sound_property {s : RowStatement (Row J)} (hdb : Sound validateJsonSchema db)
    (h : execute validateJsonSchema db (.property s) = .ok db') : Sound validateJsonSchema db' := by
  obtain ⟨rows, hrows, h⟩ := bind_eq_ok.mp h
  obtain ⟨hchecks, h⟩ := bind_unit_eq_ok.mp h
  obtain rfl := Except.ok.inj h
  obtain rfl := execute_ok hrows
  have hnew : ∀ e ∈ s.events db.property, ∀ q, e.new? = some q →
      validateProperty validateJsonSchema { db with property := s.after db.property } q = .ok () := by
    intro e he q hq
    have hcheck := forM_eq_ok.mp hchecks e he
    rw [validatePropertyRow, hq] at hcheck
    exact hcheck
  refine ⟨hdb.definitionKey, hdb.typeKey, fun p hp => ?_, hdb.definition⟩
  rcases mem_after hp with hold | ⟨e, he, hp'⟩
  · obtain ⟨v, t, hv, ht, hchecked⟩ := accepted_iff.mp (hdb.property p hold)
    refine accepted_iff.mpr ⟨v, t, hv, ht, hchecked.of_tables (fun _ => rfl) ?_ hchecked.listed⟩
    -- a row that is new has been compared with this one
    have hother : ∀ q ∈ s.after db.property, q ∈ db.property ∨
        ∃ v' t', db.definition q = some v' ∧ db.typeOf q = some t' ∧
          Unique { db with property := s.after db.property } v' t' q := by
      intro q hq
      rcases mem_after hq with hq | ⟨e, he, hq⟩
      · exact .inl hq
      · obtain ⟨v', t', hv', ht', hchecked'⟩ := accepted_iff.mp (hnew e he q hq)
        exact .inr ⟨v', t', hv', ht', hchecked'.unique⟩
    have hdefinition : ∀ q : Row J, q.propertyName = p.propertyName →
        q.propertyType = p.propertyType → db.definition q = some v := by
      intro q hname htype
      rw [← hv, Db.definition, Db.definition, hname, htype]
    have htypeOf : ∀ q : Row J, q.propertyType = p.propertyType → db.typeOf q = some t := by
      intro q htype
      rw [← ht, Db.typeOf, Db.typeOf, htype]
    refine ⟨fun hv q hq hne hsame => ?_, fun ht q hq hne hsame => ?_, fun hv q hq hne hsame => ?_⟩
    · rcases hother q hq with hq | ⟨v', t', hv', ht', hunique⟩
      · exact hchecked.unique.property hv q hq hne hsame
      · obtain ⟨hname, htype, hlhs⟩ := hsame
        obtain rfl := Option.some.inj (hv'.symm.trans (hdefinition q hname htype))
        exact hunique.property hv p hp hne.symm ⟨hname.symm, htype.symm, hlhs.symm⟩
    · rcases hother q hq with hq | ⟨v', t', hv', ht', hunique⟩
      · exact hchecked.unique.propertyType ht q hq hne hsame
      · obtain ⟨htype, hlhs⟩ := hsame
        obtain rfl := Option.some.inj (ht'.symm.trans (htypeOf q htype))
        exact hunique.propertyType ht p hp hne.symm ⟨htype.symm, hlhs.symm⟩
    · rcases hother q hq with hq | ⟨v', t', hv', ht', hunique⟩
      · exact hchecked.unique.value hv q hq hne hsame
      · obtain ⟨hname, htype, hlhs, hrhs, hstart, hfinish⟩ := hsame
        obtain rfl := Option.some.inj (hv'.symm.trans (hdefinition q hname htype))
        exact hunique.value hv p hp hne.symm
          ⟨hname.symm, htype.symm, hlhs.symm, hrhs.symm, hstart.symm, hfinish.symm⟩
  · exact hnew e he p hp'

/-! ## Statements on definitions -/

omit [DecidableEq J] in
theorem checkValProperty_ne {others : List (ValProperty J)} {new : ValProperty J}
    (h : checkValProperty others new = .ok ()) : ∀ c ∈ others, c.key ≠ new.key :=
  checkUnique_ok (bind_unit_eq_ok.mp h).1

/-- A definition that is written has been looked at, or nothing wrong is set in it. -/
theorem definition_of_new {named : Bool} {s : RowStatement (ValProperty J)} {new : ValProperty J}
    {e : RowEvent (ValProperty J)} (hdb : Sound validateJsonSchema db)
    (hguard : ¬ SetsDisallowed db named s) (he : e ∈ (ofNamed named s).events db.valProperty)
    (hnew : e.new? = some new) (hbefore : validateValPropertyRow named e = .ok ()) :
    validateValProperty new = .ok () := by
  cases e with
  | insert row =>
    obtain rfl := Option.some.inj hnew
    exact (bind_unit_eq_ok.mp hbefore).1
  | delete row => cases hnew
  | update old row =>
    obtain rfl := Option.some.inj hnew
    cases named with
    | true => exact (bind_unit_eq_ok.mp hbefore).1
    | false =>
      have htypes : TypesAllowed row := by
        by_contra hnot
        exact hguard ⟨rfl, old, row, he, hnot⟩
      have hold := validateValProperty_eq_ok.mp (hdb.definition old (old_mem he rfl))
      obtain ⟨values, rfl⟩ := exists_of_naming (show _ ∈ (s.naming _).events _ from he)
      exact validateValProperty_eq_ok.mpr ⟨hold.1, htypes⟩

theorem sound_valProperty {named : Bool} {s : RowStatement (ValProperty J)}
    (hdb : Sound validateJsonSchema db) (hguard : ¬ SetsDisallowed db named s)
    (h : execute validateJsonSchema db (.valProperty named s) = .ok db') :
    Sound validateJsonSchema db' := by
  obtain ⟨hbefore, h⟩ := bind_unit_eq_ok.mp h
  obtain ⟨rows, hrows, h⟩ := bind_eq_ok.mp h
  obtain ⟨-, h⟩ := bind_unit_eq_ok.mp h
  obtain ⟨hrefs, h⟩ := bind_unit_eq_ok.mp h
  obtain ⟨hafter, h⟩ := bind_unit_eq_ok.mp h
  obtain rfl := Except.ok.inj h
  have hkey := nodup_execute (fun _ _ => checkValProperty_ne) hdb.definitionKey hrows
  obtain rfl := execute_ok hrows
  refine ⟨hkey, hdb.typeKey, fun p hp => ?_, fun v hv => ?_⟩
  · obtain ⟨v, t, hv, ht, hchecked⟩ := accepted_iff.mp (hdb.property p hp)
    obtain ⟨hmem, hpkey⟩ := (definition_eq_some hdb.definitionKey).mp hv
    have hsame : v ∈ (ofNamed named s).after db.valProperty → validateProperty validateJsonSchema
        { db with valProperty := (ofNamed named s).after db.valProperty } p = .ok () := by
      intro hv'
      refine accepted_iff.mpr ⟨v, t, (definition_eq_some hkey).mpr ⟨hv', hpkey⟩, ht, ?_⟩
      exact hchecked.of_tables (fun _ => rfl) ⟨hchecked.unique.property,
        hchecked.unique.propertyType, hchecked.unique.value⟩ hchecked.listed
    rcases mem_or_old_of_mem (s := ofNamed named s) hmem with hv' | ⟨e, he, hold⟩
    · exact hsame hv'
    · have href := forM_eq_ok.mp hrefs e he
      rw [valPropertyReferences, hold] at href
      have hkept := mt (fun hno => ⟨hno, Or.inl ⟨p, hp, hpkey.symm⟩⟩) (raiseIf_eq_ok.mp href)
      push Not at hkept
      obtain ⟨w, hw, hwkey⟩ := hkept
      rcases mem_after hw with hw' | ⟨e', he', hnew⟩
      · rw [List.inj_on_of_nodup_map hdb.definitionKey hw' hmem hwkey] at hw
        exact hsame hw
      · cases e' with
        | insert row => exact hsame (mem_after_of_insert he' hmem)
        | delete row => cases hnew
        | update old row =>
          obtain rfl := Option.some.inj hnew
          have hwkey' := Prod.mk.inj (hwkey.trans hpkey)
          refine forM_eq_ok.mp (forM_eq_ok.mp hafter _ he') p (List.mem_filter.mpr ⟨hp, ?_⟩)
          exact decide_eq_true ⟨hwkey'.1.symm, hwkey'.2.symm⟩
  · rcases mem_after hv with hv | ⟨e, he, hnew⟩
    · exact hdb.definition v hv
    · exact definition_of_new hdb hguard he hnew (forM_eq_ok.mp hbefore e he)

/-! ## Statements on types and on listed values -/

theorem sound_valPropertyType {s : RowStatement ValPropertyType}
    (hdb : Sound validateJsonSchema db) (hguard : ¬ TurnsSingle db s)
    (h : execute validateJsonSchema db (.valPropertyType s) = .ok db') :
    Sound validateJsonSchema db' := by
  obtain ⟨rows, hrows, h⟩ := bind_eq_ok.mp h
  obtain ⟨hrefs, h⟩ := bind_unit_eq_ok.mp h
  obtain rfl := Except.ok.inj h
  have hkey := nodup_execute (fun _ _ => checkUnique_ok) hdb.typeKey hrows
  obtain rfl := execute_ok hrows
  refine ⟨hdb.definitionKey, hkey, fun p hp => ?_, hdb.definition⟩
  obtain ⟨v, t, hv, ht, hchecked⟩ := accepted_iff.mp (hdb.property p hp)
  obtain ⟨hmem, hptype⟩ := (typeOf_eq_some hdb.typeKey).mp ht
  have hv' := (definition_eq_some hdb.definitionKey).mp hv
  have hlookup : ∀ w ∈ s.after db.valPropertyType, w.propertyType = t.propertyType →
      Unique { db with valPropertyType := s.after db.valPropertyType } v w p →
        validateProperty validateJsonSchema
          { db with valPropertyType := s.after db.valPropertyType } p = .ok () := by
    intro w hw hwtype hunique
    exact accepted_iff.mpr ⟨v, w, hv, (typeOf_eq_some hkey).mpr ⟨hw, hwtype.trans hptype⟩,
      hunique, hchecked.value, hchecked.number, hchecked.listed, hchecked.typed,
      hchecked.networkRange, hchecked.json, hchecked.permitted⟩
  have hsame : t ∈ s.after db.valPropertyType → validateProperty validateJsonSchema
      { db with valPropertyType := s.after db.valPropertyType } p = .ok () := fun ht' =>
    hlookup t ht' rfl ⟨hchecked.unique.property, hchecked.unique.propertyType,
      hchecked.unique.value⟩
  rcases mem_or_old_of_mem (s := s) hmem with ht' | ⟨e, he, hold⟩
  · exact hsame ht'
  · have href := forM_eq_ok.mp hrefs e he
    rw [valPropertyTypeReferences, hold] at href
    have hptype' : v.propertyType = t.propertyType :=
      (congrArg Prod.snd hv'.2).trans hptype.symm
    have hkept := mt (fun hno => ⟨hno, v, hv'.1, hptype'⟩) (raiseIf_eq_ok.mp href)
    push Not at hkept
    obtain ⟨w, hw, hwtype⟩ := hkept
    rcases mem_after hw with hw' | ⟨e', he', hnew⟩
    · rw [List.inj_on_of_nodup_map hdb.typeKey hw' hmem hwtype] at hw
      exact hsame hw
    · cases e' with
      | insert row => exact hsame (mem_after_of_insert he' hmem)
      | delete row => cases hnew
      | update old row =>
        obtain rfl := Option.some.inj hnew
        refine hlookup row hw hwtype ⟨hchecked.unique.property, fun hsingle q hq hne hsame' => ?_,
          hchecked.unique.value⟩
        by_cases hwas : old.propertyType = row.propertyType ∧ old.isMultivalue = false
        · have hold' := List.inj_on_of_nodup_map hdb.typeKey (old_mem he' rfl) hmem
            (hwas.1.trans hwtype)
          exact hchecked.unique.propertyType (hold' ▸ hwas.2) q hq hne hsame'
        · exact hguard ⟨old, row, he', hsingle, hwas, p, hp, q, hq, hne,
            (hwtype.trans hptype).symm, hsame'⟩

theorem sound_valPropertyValue {s : RowStatement ValPropertyValue}
    (hdb : Sound validateJsonSchema db) (hguard : ¬ RenamesValue db s)
    (h : execute validateJsonSchema db (.valPropertyValue s) = .ok db') :
    Sound validateJsonSchema db' := by
  obtain ⟨rows, hrows, h⟩ := bind_eq_ok.mp h
  obtain ⟨-, h⟩ := bind_unit_eq_ok.mp h
  obtain ⟨hdels, h⟩ := bind_unit_eq_ok.mp h
  obtain rfl := Except.ok.inj h
  obtain rfl := execute_ok hrows
  refine ⟨hdb.definitionKey, hdb.typeKey, fun p hp => ?_, hdb.definition⟩
  obtain ⟨v, t, hv, ht, hchecked⟩ := accepted_iff.mp (hdb.property p hp)
  refine accepted_iff.mpr ⟨v, t, hv, ht, hchecked.of_tables (fun _ => rfl)
    ⟨hchecked.unique.property, hchecked.unique.propertyType, hchecked.unique.value⟩ ?_⟩
  intro hlist value hvalue
  rcases mem_or_old_of_mem (s := s) (hchecked.listed hlist value hvalue) with hx | ⟨e, he, hold⟩
  · exact hx
  · cases e with
    | insert row => cases hold
    | delete row =>
      obtain rfl := Option.some.inj hold
      exact absurd ⟨p, hp, rfl, rfl, hvalue⟩ (raiseIf_eq_ok.mp (forM_eq_ok.mp hdels _ he))
    | update old row =>
      obtain rfl := Option.some.inj hold
      by_cases hrenamed : row = ⟨p.propertyName, p.propertyType, value⟩
      · exact hrenamed ▸ mem_after_of_new he rfl
      · exact absurd ⟨_, row, he, hrenamed, p, hp, ⟨v, hv, hlist⟩, rfl, rfl, hvalue⟩ hguard

/-! ## Runs -/

theorem sound_step {s : Statement J} (hdb : Sound validateJsonSchema db) (hguard : Guarded db s) :
    Sound validateJsonSchema (step validateJsonSchema db s) := by
  unfold step
  split
  · next db' h =>
    cases s with
    | property s => exact sound_property hdb h
    | valProperty named s => exact sound_valProperty hdb hguard h
    | valPropertyType s => exact sound_valPropertyType hdb hguard h
    | valPropertyValue s => exact sound_valPropertyValue hdb hguard h
  · exact hdb

theorem sound_run {l : List (Statement J)} (hdb : Sound validateJsonSchema db)
    (hl : AllSteps (step validateJsonSchema) Guarded db l) :
    Sound validateJsonSchema (run (step validateJsonSchema) db l) :=
  run_invariant (fun _ _ => sound_step) hdb hl

/-! ## A listed value -/

/-- The statement writes at most one row. -/
def SingleRow (db : Db J) : Statement J → Prop
  | .property s => (s.events db.property).length ≤ 1
  | .valProperty _ s => (s.events db.valProperty).length ≤ 1
  | .valPropertyType s => (s.events db.valPropertyType).length ≤ 1
  | .valPropertyValue s => (s.events db.valPropertyValue).length ≤ 1

def portMode : ValProperty Unit where
  propertyName := "mode"
  propertyType := "port"
  propertyDataType := .list

def accessMode : Row Unit := ⟨1, "mode", "port", {}, { propertyValue := some "access" }, none, none, none⟩

def portModes (property : List (Row Unit)) : Db Unit where
  property := property
  valProperty := [portMode]
  valPropertyType := [⟨"port", true⟩]
  valPropertyValue := [⟨"mode", "port", "access"⟩, ⟨"mode", "port", "trunk"⟩]

/-- Any JSON is taken. -/
def anyJson : Option Unit → Option Unit → Result Bool := fun _ _ => .ok true

theorem sound_portModes {property : List (Row Unit)}
    (h : ∀ p ∈ property, validateProperty anyJson (portModes property) p = .ok ()) :
    Sound anyJson (portModes property) where
  definitionKey := List.nodup_singleton _
  typeKey := List.nodup_singleton _
  property := h
  definition := fun v hv => by
    rw [List.mem_singleton.mp hv]
    rfl

/-- A property comes, and its value is not deleted. -/
theorem sound_inserted : Sound anyJson (run (step anyJson) (portModes [])
    [.property (.insert [accessMode]),
      .valPropertyValue (.delete fun x => x.validPropertyValue = "access")]) := by
  refine sound_run (sound_portModes fun p hp => absurd hp List.not_mem_nil)
    ⟨trivial, ?_, trivial⟩
  rintro ⟨old, new, he, -⟩
  obtain ⟨x, -, hx⟩ := List.mem_map.mp he
  cases hx

/-- The value is renamed, and no trigger looks at the property that has it. -/
theorem renamed_value_breaks : Sound anyJson (portModes [accessMode]) ∧
    ¬ Sound anyJson (run (step anyJson) (portModes [accessMode])
      [.valPropertyValue (.update fun x => if x.validPropertyValue = "access" then
        some { x with validPropertyValue := "hybrid" } else none)]) := by
  have hsound : Sound anyJson (portModes [accessMode]) := by
    refine sound_portModes fun p hp => ?_
    rw [List.mem_singleton.mp hp]
    rfl
  refine ⟨hsound, fun h => ?_⟩
  have hcheck := h.property accessMode List.mem_cons_self
  have herror : validateProperty anyJson { portModes [accessMode] with
      valPropertyValue := [⟨"mode", "port", "hybrid"⟩, ⟨"mode", "port", "trunk"⟩] } accessMode =
        raise .invalidParameterValue "Property_Value must be a valid value" := rfl
  exact raise_ne_ok (herror.symm.trans hcheck)

end JazzHands.Property
