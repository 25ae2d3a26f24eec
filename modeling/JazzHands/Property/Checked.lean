import JazzHands.Property.Valid

/-!
# Which properties are accepted

`validateProperty_eq_ok` reads the checks of the trigger as conditions on the row, one check at a
time.  In three things they are not those of `Valid`; `Checked` is `Valid` with these as the code
has them.
-/

namespace JazzHands.Property

open Postgres

variable {J : Type} {db : Db J} {v : ValProperty J} {t : ValPropertyType}
  {p q : Row J} {tally n : ℕ} {dataType : DataType} {name text : String}

/-! ## Other rows -/

theorem sameLhs_iff {l l' : Lhs} : SameLhs l l' ↔ l = l' := by
  cases l
  cases l'
  simp only [SameLhs, Lhs.mk.injEq]

variable {r : Rhs J} {errcode : SqlState} {rows : Table String} {type : Option String}

theorem sameRhs_iff {r' : Rhs J} : SameRhs r r' ↔ r = r' := by
  cases r
  cases r'
  simp only [SameRhs, Rhs.mk.injEq]
  tauto

theorem checkMultivalue_eq_ok [DecidableEq J] :
    checkMultivalue db v t p = .ok () ↔ Unique db v t p := by
  simp only [checkMultivalue, bind_unit_eq_ok, raiseIf_eq_ok, sameLhs_iff, sameRhs_iff, not_and,
    not_exists]
  constructor
  · rintro ⟨hproperty, hvalue, htype⟩
    constructor
    · rintro hv q hq hne ⟨hname, hqtype, hlhs⟩
      exact hproperty hv q hq hne hname hqtype hlhs
    · rintro ht q hq hne ⟨hqtype, hlhs⟩
      exact htype ht q hq hne hqtype hlhs
    · rintro hv q hq hne ⟨hname, hqtype, hlhs, hrhs, hstart, hfinish⟩
      exact hvalue hv q hq hne hname hqtype hlhs hrhs hstart hfinish
  · rintro ⟨hproperty, htype, hvalue⟩
    refine ⟨fun hv q hq hne hname hqtype hlhs => hproperty hv q hq hne ⟨hname, hqtype, hlhs⟩,
      fun hv q hq hne hname hqtype hlhs hrhs hstart hfinish =>
        hvalue hv q hq hne ⟨hname, hqtype, hlhs, hrhs, hstart, hfinish⟩,
      fun ht q hq hne hqtype hlhs => htype ht q hq hne ⟨hqtype, hlhs⟩⟩

/-! ## The value -/

theorem checkValueColumn_eq_ok {α : Type} {value : Option α} :
    checkValueColumn v dataType name value tally = .ok n ↔
      (value.isSome = true → v.propertyDataType = dataType) ∧
        tally + (if value.isSome then 1 else 0) = n := by
  cases value with
  | none => simp [checkValueColumn]
  | some a =>
    unfold checkValueColumn
    by_cases hdata : v.propertyDataType = dataType
    · simp [hdata]
    · simp [hdata]

theorem checkText_eq_ok : checkText db v p text = .ok () ↔
    v.propertyDataType.column = some .propertyValue ∧
      (v.propertyDataType = .number → toNumber9 text ≠ none) ∧
        (v.propertyDataType = .list →
          ⟨p.propertyName, p.propertyType, text⟩ ∈ db.valPropertyValue) := by
  unfold checkText
  cases v.propertyDataType with
  | list =>
    rw [raiseIf_eq_ok, not_not]
    simp only [DataType.column, true_and, reduceCtorEq, false_imp_iff, true_imp_iff]
    constructor
    · rintro ⟨row, hrow, hname, htype, rfl⟩
      rw [← hname, ← htype]
      exact hrow
    · intro hrow
      exact ⟨_, hrow, rfl, rfl, rfl⟩
  | _ => simp [DataType.column]

theorem checkPropertyValue_eq_ok : checkPropertyValue db v p tally = .ok n ↔
    (∀ text, p.rhs.propertyValue = some text → checkText db v p text = .ok ()) ∧
      tally + (if p.rhs.propertyValue.isSome then 1 else 0) = n := by
  unfold checkPropertyValue
  cases p.rhs.propertyValue with
  | none => simp
  | some text =>
    show (checkText db v p text >>= fun _ => .ok (tally + 1)) = .ok n ↔ _
    rw [bind_unit_eq_ok, Except.ok.injEq]
    simp

theorem column_eq_some {k : ValueColumn} (hk : k ≠ .propertyValue) :
    dataType.column = some k ↔ dataType = k.dataType := by
  cases dataType <;> cases k <;> simp_all [DataType.column, ValueColumn.dataType]

/-- The value columns, as they are looked at. -/
def valueColumns : List ValueColumn :=
  [.json, .passwordType, .tokenCollectionId, .accountCollectionId, .netblockCollectionId,
    .serviceVersionCollectionId, .timestamp, .deviceCollectionId, .boolean, .encryptionKeyId,
    .privateKeyId, .propertyValue]

theorem mem_valueColumns (k : ValueColumn) : k ∈ valueColumns := by
  cases k <;> decide

/-- `tally` at the end. -/
def tallied (r : Rhs J) : ℕ := valueColumns.countP r.isSet

theorem tallied_ne_zero : tallied r ≠ 0 ↔ ∃ k, r.isSet k = true := by
  rw [tallied, ← Nat.pos_iff_ne_zero, List.countP_pos_iff]
  exact ⟨fun ⟨k, _, hk⟩ => ⟨k, hk⟩, fun ⟨k, hk⟩ => ⟨k, mem_valueColumns k, hk⟩⟩

theorem tallied_le_one (h : ∀ k, r.isSet k = true → dataType.column = some k) :
    tallied r ≤ 1 := by
  by_cases hset : ∃ k, r.isSet k = true
  · obtain ⟨k, hk⟩ := hset
    have honly : ∀ k' ∈ valueColumns, r.isSet k' = true → (k' == k) = true := by
      intro k' _ hk'
      exact beq_iff_eq.mpr (Option.some.inj ((h k' hk').symm.trans (h k hk)))
    calc tallied r ≤ valueColumns.count k := List.countP_mono_left honly
      _ ≤ 1 := List.nodup_iff_count_le_one.mp (by decide) k
  · have hzero := not_not.mp (mt tallied_ne_zero.mp hset)
    omega

theorem tallied_eq (r : Rhs J) : tallied r =
    0 + (if r.propertyValueJson.isSome then 1 else 0) +
      (if r.propertyValuePasswordType.isSome then 1 else 0) +
      (if r.propertyValueTokenCollectionId.isSome then 1 else 0) +
      (if r.propertyValueAccountCollectionId.isSome then 1 else 0) +
      (if r.propertyValueNetblockCollectionId.isSome then 1 else 0) +
      (if r.propertyValueServiceVersionCollectionId.isSome then 1 else 0) +
      (if r.propertyValueTimestamp.isSome then 1 else 0) +
      (if r.propertyValueDeviceCollectionId.isSome then 1 else 0) +
      (if r.propertyValueBoolean.isSome then 1 else 0) +
      (if r.propertyValueEncryptionKeyId.isSome then 1 else 0) +
      (if r.propertyValuePrivateKeyId.isSome then 1 else 0) +
      (if r.propertyValue.isSome then 1 else 0) := by
  simp only [tallied, valueColumns, List.countP_cons, List.countP_nil, Rhs.isSet]
  ac_rfl

theorem checkValue_iff_tallied : checkValue db v p = .ok () ↔
    (∀ k, p.rhs.isSet k = true → v.propertyDataType.column = some k) ∧
      (∀ text, p.rhs.propertyValue = some text → checkText db v p text = .ok ()) ∧
        (v.propertyDataType ≠ .none → tallied p.rhs ≠ 0) ∧ tallied p.rhs ≤ 1 := by
  simp only [checkValue, bind_eq_ok, checkValueColumn_eq_ok, checkPropertyValue_eq_ok,
    raiseIf_eq_ok, and_assoc, existsAndEq, true_and, exists_const, ← tallied_eq]
  constructor
  · rintro ⟨hjson, hpassword, htoken, haccount, hnetblock, hversion, htimestamp, hdevice, hboolean,
      hencryption, hprivate, htext, hset, hone⟩
    refine ⟨fun k hk => ?_, htext, fun hne hzero => hset ⟨hne, hzero⟩, Nat.not_lt.mp hone⟩
    cases k with
    | propertyValue =>
      obtain ⟨text, hvalue⟩ := Option.isSome_iff_exists.mp hk
      exact (checkText_eq_ok.mp (htext text hvalue)).1
    | json => exact (column_eq_some (by decide)).mpr (hjson hk)
    | passwordType => exact (column_eq_some (by decide)).mpr (hpassword hk)
    | tokenCollectionId => exact (column_eq_some (by decide)).mpr (htoken hk)
    | accountCollectionId => exact (column_eq_some (by decide)).mpr (haccount hk)
    | netblockCollectionId => exact (column_eq_some (by decide)).mpr (hnetblock hk)
    | serviceVersionCollectionId => exact (column_eq_some (by decide)).mpr (hversion hk)
    | timestamp => exact (column_eq_some (by decide)).mpr (htimestamp hk)
    | deviceCollectionId => exact (column_eq_some (by decide)).mpr (hdevice hk)
    | boolean => exact (column_eq_some (by decide)).mpr (hboolean hk)
    | encryptionKeyId => exact (column_eq_some (by decide)).mpr (hencryption hk)
    | privateKeyId => exact (column_eq_some (by decide)).mpr (hprivate hk)
  · rintro ⟨hcolumn, htext, hset, hone⟩
    have htype : ∀ k, k ≠ .propertyValue → p.rhs.isSet k = true → v.propertyDataType = k.dataType :=
      fun k hk hisSet => (column_eq_some hk).mp (hcolumn k hisSet)
    exact ⟨htype .json (by decide), htype .passwordType (by decide),
      htype .tokenCollectionId (by decide), htype .accountCollectionId (by decide),
      htype .netblockCollectionId (by decide), htype .serviceVersionCollectionId (by decide),
      htype .timestamp (by decide), htype .deviceCollectionId (by decide),
      htype .boolean (by decide), htype .encryptionKeyId (by decide),
      htype .privateKeyId (by decide), htext, fun h => hset h.1 h.2, Nat.not_lt.mpr hone⟩

theorem hasValue_iff : HasValue v p ↔
    (∀ k, p.rhs.isSet k = true → v.propertyDataType.column = some k) ∧
      (v.propertyDataType ≠ .none → tallied p.rhs ≠ 0) := by
  constructor
  · rintro ⟨hcolumn, hnone⟩
    refine ⟨fun k => (hcolumn k).mp, fun hne => tallied_ne_zero.mpr ?_⟩
    cases hk : v.propertyDataType.column with
    | none => exact absurd (hnone hk) hne
    | some k => exact ⟨k, (hcolumn k).mpr hk⟩
  · rintro ⟨hcolumn, hset⟩
    have hset : v.propertyDataType ≠ .none → ∃ k, p.rhs.isSet k = true :=
      fun hne => tallied_ne_zero.mp (hset hne)
    refine ⟨fun k => ⟨hcolumn k, fun hk => ?_⟩, fun hk => ?_⟩
    · have hne : v.propertyDataType ≠ .none := by
        intro hnone
        rw [hnone] at hk
        cases hk
      obtain ⟨k', hk'⟩ := hset hne
      obtain rfl := Option.some.inj (hk.symm.trans (hcolumn k' hk'))
      exact hk'
    · by_contra hne
      obtain ⟨k', hk'⟩ := hset hne
      rw [hcolumn k' hk'] at hk
      cases hk

theorem checkValue_eq_ok : checkValue db v p = .ok () ↔ HasValue v p ∧
    (v.propertyDataType = .number → ∀ value, p.rhs.propertyValue = some value →
      toNumber9 value ≠ none) ∧ Listed db v p := by
  rw [checkValue_iff_tallied, hasValue_iff]
  simp only [checkText_eq_ok]
  constructor
  · rintro ⟨hcolumn, htext, hset, -⟩
    exact ⟨⟨hcolumn, hset⟩, fun hnumber text hvalue => (htext text hvalue).2.1 hnumber,
      fun hlist text hvalue => (htext text hvalue).2.2 hlist⟩
  · rintro ⟨⟨hcolumn, hset⟩, hnumber, hlist⟩
    refine ⟨hcolumn, fun text hvalue => ⟨hcolumn .propertyValue ?_, ?_, ?_⟩, hset,
      tallied_le_one hcolumn⟩
    · exact Option.isSome_iff_exists.mpr ⟨text, hvalue⟩
    · exact fun hdata => hnumber hdata text hvalue
    · exact fun hdata => hlist hdata text hvalue

/-! ## Types -/

theorem checkType_eq_ok {isSet : Bool} {id : Option ℕ}
    : checkType isSet id type rows errcode name = .ok () ↔
      (isSet = true → ∀ i found wanted, id = some i → (i, found) ∈ rows.rows →
        type = some wanted → found = wanted) := by
  unfold checkType
  cases type with
  | none => simp
  | some wanted =>
    cases isSet with
    | false => simp
    | true =>
      cases id with
      | none => simp
      | some i =>
        cases hget : rows.get i with
        | none =>
          have habsent := Table.get_eq_none.mp hget
          simp only [Option.bind_some, hget, if_true, true_imp_iff, true_iff]
          rintro j found wanted' hj hrow -
          obtain rfl := Option.some.inj hj
          exact absurd (List.mem_map_of_mem (f := Prod.fst) hrow) habsent
        | some found =>
          simp only [Option.bind_some, hget, if_true, true_imp_iff, raiseIf_eq_ok, not_not]
          constructor
          · rintro rfl j found' wanted' hj hrow hwanted
            obtain rfl := Option.some.inj hj
            rw [Table.get_eq_some.mpr hrow] at hget
            exact (Option.some.inj hget).trans (Option.some.inj hwanted)
          · intro h
            exact h i found wanted rfl (Table.get_eq_some.mp hget) rfl

theorem checkCollectionType_eq_ok {id : Option ℕ} :
    checkCollectionType id type rows name = .ok () ↔
      ∀ i found wanted, id = some i → (i, found) ∈ rows.rows → type = some wanted →
        found = wanted := by
  rw [checkCollectionType, checkType_eq_ok]
  constructor
  · intro h i found wanted hi
    exact h (Option.isSome_iff_exists.mpr ⟨i, hi⟩) i found wanted hi
  · intro h _
    exact h

theorem checkTypes_eq_ok : checkTypes db v p = .ok () ↔
    (∀ r, r ≠ .networkRange → Typed db v p r) ∧
      (p.lhs.netblockCollectionId.isSome = true → Typed db v p .networkRange) := by
  simp only [checkTypes, bind_unit_eq_ok, checkCollectionType_eq_ok, checkType_eq_ok]
  constructor
  · rintro ⟨haccount, hcompany, hdevice, hdns, hlayer2, hlayer3, hnetblock, hrange, hname,
      henvironment, hversion, haccount', hnetblock', hversion', hdevice'⟩
    refine ⟨fun r hr => ?_, hrange⟩
    cases r with
    | accountCollection => exact haccount
    | companyCollection => exact hcompany
    | deviceCollection => exact hdevice
    | dnsDomainCollection => exact hdns
    | layer2NetworkCollection => exact hlayer2
    | layer3NetworkCollection => exact hlayer3
    | netblockCollection => exact hnetblock
    | networkRange => exact absurd rfl hr
    | propertyNameCollection => exact hname
    | serviceEnvironmentCollection => exact henvironment
    | serviceVersionCollection => exact hversion
    | valueAccountCollection => exact haccount'
    | valueDeviceCollection => exact hdevice'
    | valueNetblockCollection =>
      intro i found wanted hi
      exact hnetblock' (Option.isSome_iff_exists.mpr ⟨i, hi⟩) i found wanted hi
    | valueServiceVersionCollection => exact hversion'
  · rintro ⟨h, hrange⟩
    exact ⟨h .accountCollection (by decide), h .companyCollection (by decide),
      h .deviceCollection (by decide), h .dnsDomainCollection (by decide),
      h .layer2NetworkCollection (by decide), h .layer3NetworkCollection (by decide),
      h .netblockCollection (by decide), hrange, h .propertyNameCollection (by decide),
      h .serviceEnvironmentCollection (by decide), h .serviceVersionCollection (by decide),
      h .valueAccountCollection (by decide), fun _ => h .valueNetblockCollection (by decide),
      h .valueServiceVersionCollection (by decide), h .valueDeviceCollection (by decide)⟩

/-! ## The left-hand side -/

theorem checkPermit_eq_ok {α : Type} {permit : Permit} {column : Option α}
    {required prohibited : String} :
    checkPermit permit column required errcode prohibited = .ok () ↔
      (permit = .REQUIRED → column.isSome = true) ∧
        (permit = .PROHIBITED → column.isSome = false) := by
  cases permit <;> cases column <;> simp [checkPermit]

theorem checkPermits_eq_ok : checkPermits v p = .ok () ↔
    ∀ k, k ≠ .x509SignedCertificateId → Permitted v p k := by
  simp only [checkPermits, bind_unit_eq_ok, checkPermitted, checkPermit_eq_ok]
  constructor
  · rintro ⟨hcompany, hcompanyCollection, hdevice, hdns, henvironment, hversion, hos, hsnapshot,
      hsite, haccount, hrealm, haccountCollection, hlayer2, hlayer3, hnetblock, hrange, hname,
      hrank⟩ k hk
    cases k with
    | accountCollectionId => exact haccountCollection
    | accountId => exact haccount
    | accountRealmId => exact hrealm
    | companyId => exact hcompany
    | companyCollectionId => exact hcompanyCollection
    | deviceCollectionId => exact hdevice
    | dnsDomainCollectionId => exact hdns
    | layer2NetworkCollectionId => exact hlayer2
    | layer3NetworkCollectionId => exact hlayer3
    | netblockCollectionId => exact hnetblock
    | networkRangeId => exact hrange
    | operatingSystemId => exact hos
    | operatingSystemSnapshotId => exact hsnapshot
    | propertyNameCollectionId => exact hname
    | serviceEnvironmentCollectionId => exact henvironment
    | serviceVersionCollectionId => exact hversion
    | siteCode => exact hsite
    | x509SignedCertificateId => exact absurd rfl hk
    | propertyRank => exact hrank
  · intro h
    exact ⟨h .companyId (by decide), h .companyCollectionId (by decide),
      h .deviceCollectionId (by decide), h .dnsDomainCollectionId (by decide),
      h .serviceEnvironmentCollectionId (by decide), h .serviceVersionCollectionId (by decide),
      h .operatingSystemId (by decide), h .operatingSystemSnapshotId (by decide),
      h .siteCode (by decide), h .accountId (by decide), h .accountRealmId (by decide),
      h .accountCollectionId (by decide), h .layer2NetworkCollectionId (by decide),
      h .layer3NetworkCollectionId (by decide), h .netblockCollectionId (by decide),
      h .networkRangeId (by decide), h .propertyNameCollectionId (by decide),
      h .propertyRank (by decide)⟩

/-! ## All of it -/

variable {validateJsonSchema : Option J → Option J → Result Bool}

theorem checkJson_eq_ok : checkJson validateJsonSchema v p = .ok () ↔
    (v.propertyDataType = .json →
      validateJsonSchema v.propertyValueJsonSchema p.rhs.propertyValueJson = .ok true) := by
  unfold checkJson
  by_cases hjson : v.propertyDataType = .json
  · simp only [hjson, if_true, bind_eq_ok, raiseIf_eq_ok, true_imp_iff]
    constructor
    · rintro ⟨valid, hvalid, htrue⟩
      cases valid with
      | false => exact absurd rfl htrue
      | true => exact hvalid
    · intro hvalid
      exact ⟨true, hvalid, by decide⟩
  · simp [hjson]

/-- The type of a network range is looked at where there is a netblock collection, a number is read
up to its first digit, and nothing is said about certificates. -/
structure Checked (validateJsonSchema : Option J → Option J → Result Bool) (db : Db J)
    (v : ValProperty J) (t : ValPropertyType) (p : Row J) : Prop where
  unique : Unique db v t p
  value : HasValue v p
  number : v.propertyDataType = .number → ∀ value, p.rhs.propertyValue = some value →
    toNumber9 value ≠ none
  listed : Listed db v p
  typed : ∀ r, r ≠ .networkRange → Typed db v p r
  networkRange : p.lhs.netblockCollectionId.isSome = true → Typed db v p .networkRange
  json : v.propertyDataType = .json →
    validateJsonSchema v.propertyValueJsonSchema p.rhs.propertyValueJson = .ok true
  permitted : ∀ k, k ≠ .x509SignedCertificateId → Permitted v p k

theorem validateProperty_eq_ok [DecidableEq J] (hv : db.definition p = some v)
    (ht : db.typeOf p = some t) : validateProperty validateJsonSchema db p = .ok () ↔
      Checked validateJsonSchema db v t p := by
  simp only [validateProperty, hv, ht, bind_unit_eq_ok, checkMultivalue_eq_ok, checkValue_eq_ok,
    checkTypes_eq_ok, checkJson_eq_ok, checkPermits_eq_ok]
  constructor
  · rintro ⟨hunique, ⟨hvalue, hnumber, hlisted⟩, ⟨htyped, hrange⟩, hjson, hpermitted⟩
    exact ⟨hunique, hvalue, hnumber, hlisted, htyped, hrange, hjson, hpermitted⟩
  · rintro ⟨hunique, hvalue, hnumber, hlisted, htyped, hrange, hjson, hpermitted⟩
    exact ⟨hunique, ⟨hvalue, hnumber, hlisted⟩, ⟨htyped, hrange⟩, hjson, hpermitted⟩

end JazzHands.Property
