import JazzHands.Property.Checked

/-!
# Only valid properties are accepted

The type of a network range goes unchecked where the row has no netblock collection, numbers have
their first digit checked only, and no stanza is there for certificates.
-/

namespace JazzHands.Property

open Postgres

variable {J : Type} {db : Db J} {v : ValProperty J} {t : ValPropertyType} {p : Row J} {text : String}
  {validateJsonSchema : Option J → Option J → Result Bool}

/-- No blank comes first, and what comes after the first digit are digits, with a point or none. -/
def isPlain (text : String) : Bool :=
  match text.toList with
  | ' ' :: _ => false
  | '-' :: _ :: cs => isDigits cs
  | '+' :: _ :: cs => isDigits cs
  | _ :: cs => isDigits cs
  | [] => false

structure NothingMissed (db : Db J) (v : ValProperty J) (p : Row J) : Prop where
  networkRange : p.lhs.netblockCollectionId = none → Typed db v p .networkRange
  number : v.propertyDataType = .number → ∀ value, p.rhs.propertyValue = some value →
    isPlain value = true
  certificate : Permitted v p .x509SignedCertificateId

theorem isDecimal_iff (h : toNumber9 text ≠ none) : isDecimal text = isPlain text := by
  unfold toNumber9 at h
  unfold isDecimal isPlain
  cases htext : text.toList with
  | nil => rfl
  | cons c cs =>
    rw [htext] at h
    by_cases hblank : c = ' '
    · rw [hblank]
      simp
    · by_cases hminus : c = '-'
      · subst hminus
        cases cs with
        | nil => simp at h
        | cons d cs =>
          have hdigit : d.isDigit = true := by
            by_contra hd
            simp [hd] at h
          simp [hdigit]
      · by_cases hplus : c = '+'
        · subst hplus
          cases cs with
          | nil => simp at h
          | cons d cs =>
            have hdigit : d.isDigit = true := by
              by_contra hd
              simp [hd] at h
            simp [hdigit]
        · have hdigit : c.isDigit = true := by
            by_contra hd
            simp [hblank, hminus, hplus, hd] at h
          simp [hminus, hplus, hdigit]

theorem Checked.valid_iff (h : Checked validateJsonSchema db v t p) :
    Valid db v t p ↔ NothingMissed db v p := by
  constructor
  · intro hvalid
    refine ⟨fun _ => hvalid.typed .networkRange, fun hnumber value hvalue => ?_,
      hvalid.permitted .x509SignedCertificateId⟩
    rw [← isDecimal_iff (h.number hnumber value hvalue)]
    exact hvalid.number hnumber value hvalue
  · intro hmissed
    refine ⟨h.unique, h.value, fun hnumber value hvalue => ?_, h.listed, fun r => ?_, fun k => ?_⟩
    · rw [isDecimal_iff (h.number hnumber value hvalue)]
      exact hmissed.number hnumber value hvalue
    · by_cases hr : r = .networkRange
      · rw [hr]
        cases hnetblock : p.lhs.netblockCollectionId with
        | none => exact hmissed.networkRange hnetblock
        | some i => exact h.networkRange (Option.isSome_iff_exists.mpr ⟨i, hnetblock⟩)
      · exact h.typed r hr
    · by_cases hk : k = .x509SignedCertificateId
      · rw [hk]
        exact hmissed.certificate
      · exact h.permitted k hk

theorem accepted_valid_iff [DecidableEq J] (hv : db.definition p = some v)
    (ht : db.typeOf p = some t) :
    (validateProperty validateJsonSchema db p = .ok () → Valid db v t p) ↔
      (Checked validateJsonSchema db v t p → NothingMissed db v p) := by
  rw [validateProperty_eq_ok hv ht]
  exact forall_congr' fun h => h.valid_iff

/-! ## A number and a network range -/

/-- The definition of a number. -/
def mtu : ValProperty Unit where
  propertyName := "mtu"
  propertyType := "interface"
  propertyDataType := .number

def ofInterface : ValPropertyType := ⟨"interface", true⟩

def mtuOf1500 : Row Unit := ⟨1, "mtu", "interface", {}, { propertyValue := some "1500" }, none, none, none⟩

def withMtu : Db Unit where
  property := []
  valProperty := [mtu]
  valPropertyType := [ofInterface]
  valPropertyValue := []

theorem valid_mtu : Valid withMtu mtu ofInterface mtuOf1500 := by
  refine (@accepted_valid_iff Unit withMtu mtu ofInterface mtuOf1500 (fun _ _ => .ok true) _ ?_ ?_).mpr
    (fun _ => ⟨?_, ?_, ?_⟩) ?_
  · rfl
  · rfl
  · rintro - i found wanted hi
    cases hi
  · rintro - value hvalue
    cases hvalue
    decide
  · constructor <;> intro h
    · cases h
    · rfl
  · rfl

/-- The definition of a property of network ranges of one type. -/
def gateway : ValProperty Unit where
  propertyName := "gateway"
  propertyType := "range"
  networkRangeType := some "lan"
  propertyDataType := .none
  permitNetworkRangeId := .REQUIRED

def gatewayOfDhcp : Row Unit := ⟨1, "gateway", "range", { networkRangeId := some 1 }, {}, none, none, none⟩

theorem nodup_dhcp : ([(1, "dhcp")].map Prod.fst).Nodup := by decide

/-- The network range is of another type. -/
def withDhcp : Db Unit where
  property := []
  valProperty := [gateway]
  valPropertyType := [⟨"range", true⟩]
  valPropertyValue := []
  networkRange := ⟨[(1, "dhcp")], 2, nodup_dhcp⟩

theorem dhcp_accepted : (validateValProperty gateway = .ok () ∧
      withDhcp.definition gatewayOfDhcp = some gateway ∧
      withDhcp.typeOf gatewayOfDhcp = some ⟨"range", true⟩ ∧
      validateProperty (fun _ _ => .ok true) withDhcp gatewayOfDhcp = .ok ()) ∧
    ¬ Valid withDhcp gateway ⟨"range", true⟩ gatewayOfDhcp := by
  refine ⟨⟨rfl, rfl, rfl, rfl⟩, fun hvalid => ?_⟩
  exact absurd (hvalid.typed .networkRange 1 "dhcp" "lan" rfl List.mem_cons_self rfl) (by decide)

end JazzHands.Property
