import JazzHands.Dns.Written
import JazzHands.Library.Runs
import Mathlib.Tactic.MkIffOfInductiveProp

/-!
# No other record beside a `CNAME`

* `smashAt_perm`: the rows that `dns_record_cname_checker` reads are the enabled records at the place
  of the new one.
-/

namespace JazzHands.Dns

open Library Postgres

variable {t : List DnsRecord} {r q new old given : DnsRecord} {db db' : Db} {op : Op}
  {first : FirstRow (ℕ × ℕ)}

/-- The name of a record: its own, or that of the record it takes its name from. -/
def nameOf (t : List DnsRecord) (r : DnsRecord) : Option String :=
  match r.referenceDnsRecordId with
  | none => r.dnsName
  | some i => (findRecord t i).bind (·.dnsName)

/-- Two enabled records at one name, zone and universe. -/
structure Beside (t : List DnsRecord) (r q : DnsRecord) : Prop where
  left : r ∈ t ∧ r.isEnabled = true
  right : q ∈ t ∧ q.isEnabled = true
  ne : r.dnsRecordId ≠ q.dnsRecordId
  zone : r.dnsDomainId = q.dnsDomainId
  name : (nameOf t r).map lower = (nameOf t q).map lower
  ipUniverse : r.ipUniverseId = q.ipUniverseId

/-- No record of the class of a `CNAME` is beside it. -/
def CnamesAlone (t : List DnsRecord) : Prop :=
  ∀ r q, Beside t r q → r.dnsClass = q.dnsClass → r.dnsType ≠ "CNAME"

/-! ## What the check reads -/

/-- The row of the inner query for a record. -/
def smashRow (t : List DnsRecord) (d : DnsRecord) : SmashRow :=
  ⟨nameOf t d, d.dnsDomainId, d.dnsType, d.dnsClass, d.ipUniverseId⟩

theorem Keys.filter_id (hkeys : Keys t) (hr : r ∈ t) :
    t.filter (·.dnsRecordId = r.dnsRecordId) = [r] := by
  have hcongr : t.filter (·.dnsRecordId = r.dnsRecordId) = t.filter (· = r) := by
    refine List.filter_congr fun q hq => decide_eq_decide.mpr ⟨hkeys.eq_of_id hq hr, ?_⟩
    rintro rfl
    rfl
  rw [hcongr, List.filter_eq, List.count_eq_one_of_mem (List.Nodup.of_map _ hkeys.nodup) hr]
  rfl

theorem Keys.flatMap_reference (hkeys : Keys t) {l : List DnsRecord} (hl : ∀ d ∈ l, d ∈ t) :
    (l.flatMap fun d => (t.filter fun ref => d.referenceDnsRecordId = some ref.dnsRecordId).map
      fun ref => (⟨ref.dnsName, d.dnsDomainId, d.dnsType, d.dnsClass, d.ipUniverseId⟩ : SmashRow)) =
    (l.filter (·.referenceDnsRecordId ≠ none)).map (smashRow t) := by
  induction l with
  | nil => rfl
  | cons d l ih =>
    rw [List.flatMap_cons, ih fun e he => hl e (List.mem_cons_of_mem _ he), List.filter_cons]
    cases hd : d.referenceDnsRecordId with
    | none => simp
    | some i =>
      obtain ⟨ref, href, rfl, -⟩ := hkeys.reference d (hl d List.mem_cons_self) i hd
      have hfilter : (t.filter fun q => some ref.dnsRecordId = some q.dnsRecordId) = [ref] := by
        rw [← hkeys.filter_id href]
        exact List.filter_congr fun q _ => decide_eq_decide.mpr (by rw [Option.some_inj, eq_comm])
      rw [hfilter]
      simp [smashRow, nameOf, hd, hkeys.findRecord href rfl]

theorem smash_perm (hkeys : Keys t) :
    (smash t).Perm ((t.filter (·.isEnabled = true)).map (smashRow t)) := by
  have hown : ((t.filter fun d => d.referenceDnsRecordId = none ∧ d.isEnabled = true).map
      fun d => (⟨d.dnsName, d.dnsDomainId, d.dnsType, d.dnsClass, d.ipUniverseId⟩ : SmashRow)) =
      ((t.filter (·.isEnabled = true)).filter (·.referenceDnsRecordId = none)).map (smashRow t) := by
    rw [List.filter_filter]
    simp only [← Bool.decide_and]
    refine List.map_congr_left fun d hd => ?_
    have href := (of_decide_eq_true (List.mem_filter.mp hd).2).1
    rw [smashRow, nameOf, href]
  rw [smash, hown, hkeys.flatMap_reference fun d hd => List.mem_of_mem_filter hd, ← List.map_append]
  refine List.Perm.map _ ?_
  simp only [ne_eq, decide_not]
  exact List.filter_append_perm _ _

/-- The check for `new` looks at the place of the record. -/
@[mk_iff]
structure Looked (db : Db) (new r : DnsRecord) : Prop where
  name : (nameOf db.dnsRecord r).map lower = new.dnsName.map lower
  zone : r.dnsDomainId = new.dnsDomainId
  visible : IsVisible db new r.ipUniverseId
  dnsClass : r.dnsClass = new.dnsClass

theorem Looked.beside (h : Looked db new r) (hrq : Beside db.dnsRecord r q)
    (hclass : r.dnsClass = q.dnsClass) : Looked db new q where
  name := hrq.name.symm.trans h.name
  zone := hrq.zone.symm.trans h.zone
  visible := hrq.ipUniverse ▸ h.visible
  dnsClass := hclass.symm.trans h.dnsClass

instance : Decidable (Looked db new r) := decidable_of_iff _ (looked_iff db new r).symm

/-- The enabled records that the check counts. -/
def lookedAt (db : Db) (new : DnsRecord) : List DnsRecord :=
  (db.dnsRecord.filter (·.isEnabled = true)).filter (Looked db new ·)

theorem mem_lookedAt : r ∈ lookedAt db new ↔
    r ∈ db.dnsRecord ∧ r.isEnabled = true ∧ Looked db new r := by
  rw [lookedAt, List.mem_filter, List.mem_filter, decide_eq_true_iff, decide_eq_true_iff, and_assoc]

theorem smashAt_perm (hkeys : Keys db.dnsRecord) :
    (smashAt db new).Perm ((lookedAt db new).map (smashRow db.dnsRecord)) := by
  refine ((smash_perm hkeys).filter _).trans (List.Perm.of_eq ?_)
  rw [List.filter_map, lookedAt]
  refine congrArg _ (List.filter_congr fun d _ => ?_)
  exact decide_eq_decide.mpr (looked_iff db new _).symm

/-- The records that the check counts spell their name alike. -/
def SpelledAlike (db : Db) (new : DnsRecord) : Prop :=
  ∀ r ∈ lookedAt db new, ∀ q ∈ lookedAt db new,
    nameOf db.dnsRecord r = nameOf db.dnsRecord q
  deriving Decidable

theorem two_le_countP {α : Type*} [DecidableEq α] {p : α → Bool} {l : List α} {a b : α}
    (ha : a ∈ l) (hb : b ∈ l) (hne : a ≠ b) (hpa : p a) (hpb : p b) : 2 ≤ l.countP p := by
  rw [List.countP_eq_length_filter]
  have hsub : [a, b] ⊆ l.filter p := by
    intro c hc
    rcases List.mem_pair.mp hc with rfl | rfl
    · exact List.mem_filter.mpr ⟨ha, hpa⟩
    · exact List.mem_filter.mpr ⟨hb, hpb⟩
  exact (List.subperm_of_subset (by simp [hne]) hsub).length_le

/-- With one spelling there is one group, of all the rows. -/
theorem pick_cnameCounts (hkeys : Keys db.dnsRecord) (halike : SpelledAlike db new)
    (hr : r ∈ lookedAt db new) : first.pick (cnameCounts (smashAt db new)) =
      some ((lookedAt db new).countP (·.dnsType = "CNAME"),
        (lookedAt db new).countP (·.dnsType ≠ "CNAME")) := by
  have hperm : (smashAt db new).Perm ((lookedAt db new).map (smashRow db.dnsRecord)) :=
    smashAt_perm hkeys
  have hkey : ∀ d ∈ smashAt db new, d.key = (smashRow db.dnsRecord r).key := by
    intro d hd
    obtain ⟨q, hq, rfl⟩ := List.mem_map.mp (hperm.mem_iff.mp hd)
    have hlook := (mem_lookedAt.mp hq).2.2
    have hlook' := (mem_lookedAt.mp hr).2.2
    exact Prod.ext (halike q hq r hr) (Prod.ext (hlook.zone.trans hlook'.zone.symm)
      (hlook.dnsClass.trans hlook'.dnsClass.symm))
  have hcount : ∀ p : SmashRow → Bool, (smashAt db new).countP p =
      (lookedAt db new).countP fun d => p (smashRow db.dnsRecord d) := by
    intro p
    rw [hperm.countP_eq, List.countP_map]
    rfl
  have hall : (smashAt db new).filter (·.key = (smashRow db.dnsRecord r).key) = smashAt db new :=
    List.filter_eq_self.mpr fun d hd => decide_eq_true (hkey d hd)
  have hrmem : smashRow db.dnsRecord r ∈ smashAt db new :=
    hperm.mem_iff.mpr (List.mem_map_of_mem hr)
  refine first.pick_eq ?_ ?_
  · refine List.mem_map.mpr ⟨(smashRow db.dnsRecord r).key, ?_, ?_⟩
    · exact List.mem_dedup.mpr (List.mem_map_of_mem hrmem)
    · rw [hall, hcount, hcount]
      rfl
  · intro c hc
    obtain ⟨k, hk, rfl⟩ := List.mem_map.mp hc
    obtain ⟨d, hd, rfl⟩ := List.mem_map.mp (List.mem_dedup.mp hk)
    rw [hkey d hd, hall, hcount, hcount]
    rfl

/-- **What the check decides.**  Among the records that it looks at, a `CNAME` is alone. -/
theorem alone_of_cnameChecker (hkeys : Keys db.dnsRecord) (halike : SpelledAlike db new)
    (hok : dnsRecordCnameChecker first db new = .ok ()) (hr : r ∈ lookedAt db new)
    (hq : q ∈ lookedAt db new) (hne : r ≠ q) : r.dnsType ≠ "CNAME" := by
  intro hcname
  rw [dnsRecordCnameChecker, pick_cnameCounts hkeys halike hr] at hok
  have hcounts := raiseIf_eq_ok.mp hok
  refine hcounts ?_
  by_cases hq' : q.dnsType = "CNAME"
  · exact Or.inr (two_le_countP hr hq hne (decide_eq_true hcname) (decide_eq_true hq'))
  · refine Or.inl ⟨List.countP_pos_iff.mpr ⟨r, hr, decide_eq_true hcname⟩,
      List.countP_pos_iff.mpr ⟨q, hq, decide_eq_true hq'⟩⟩

/-! ## One statement -/

/-- What the rule depends on in an enabled record. -/
def standing (t : List DnsRecord) (r : DnsRecord) :
    Option String × ℕ × String × Option ℕ × String :=
  ((nameOf t r).map lower, r.dnsDomainId, r.dnsClass, r.ipUniverseId, r.dnsType)

/-- The record comes to its place by the statement: it is new, or enabled by it, or gets another
name, zone, class, universe or type. -/
def Moved (t : List DnsRecord) (op : Op) (new r : DnsRecord) : Prop :=
  Comes (standing t) (standing (writeRow t op new)) t op new r
  deriving Decidable

/-- **The condition on a statement.**  When it brings records to their places, the check runs, looks
at each of them, and finds one spelling of their name. -/
def Seen (db : Db) (s : Statement × FirstRow (ℕ × ℕ)) : Prop :=
  ∀ op given new, Writes db s.1 op given → Fits db op given new →
    (∃ r, Moved db.dnsRecord op new r) →
    op.Fires cnameColumns ∧ (∀ r, Moved db.dnsRecord op new r → Looked (db.after op new) new r) ∧
      SpelledAlike (db.after op new) new

theorem Beside.symm (h : Beside t r q) : Beside t q r :=
  ⟨h.right, h.left, h.ne.symm, h.zone.symm, h.name.symm, h.ipUniverse.symm⟩

theorem Written.cnamesAlone (hw : Written first db op given new) (hkeys : Keys db.dnsRecord)
    (hop : op.Of db.dnsRecord) (halone : CnamesAlone db.dnsRecord)
    (hseen : (∃ r, Moved db.dnsRecord op new r) →
      op.Fires cnameColumns ∧ (∀ r, Moved db.dnsRecord op new r → Looked (db.after op new) new r) ∧
        SpelledAlike (db.after op new) new) : CnamesAlone (writeRow db.dnsRecord op new) := by
  intro r q hrq hclass
  by_cases hmoved : Moved db.dnsRecord op new r ∨ Moved db.dnsRecord op new q
  · obtain ⟨hfires, hlooked, halike⟩ := hseen (hmoved.elim (⟨r, ·⟩) (⟨q, ·⟩))
    have hkeys' := hw.keys_writeRow hkeys hop
    have hrlook : Looked (db.after op new) new r := by
      rcases hmoved with h | h
      · exact hlooked r h
      · exact (hlooked q h).beside hrq.symm hclass.symm
    have hchecker : dnsRecordCnameChecker first
        (db.after op new) new = .ok () := by
      obtain ⟨-, hafter⟩ := bind_unit_eq_ok.mp hw.after
      obtain ⟨-, hafter⟩ := bind_unit_eq_ok.mp hafter
      obtain ⟨-, hafter⟩ := bind_unit_eq_ok.mp hafter
      rwa [Op.on, if_pos hfires] at hafter
    refine alone_of_cnameChecker hkeys' halike hchecker
      (mem_lookedAt.mpr ⟨hrq.left.1, hrq.left.2, hrlook⟩)
      (mem_lookedAt.mpr ⟨hrq.right.1, hrq.right.2, hrlook.beside hrq hclass⟩) ?_
    rintro rfl
    exact hrq.ne rfl
  · -- both were at their places before
    rw [not_or] at hmoved
    obtain ⟨o, p, ho, hp, hne, hostand, hpstand⟩ :=
      exists_before hop hrq.left hrq.right hrq.ne hmoved.1 hmoved.2
    simp only [standing, Prod.mk.injEq] at hostand hpstand
    obtain ⟨honame, hozone, hoclass, houniv, hotype⟩ := hostand
    obtain ⟨hpname, hpzone, hpclass, hpuniv, -⟩ := hpstand
    rw [← hotype]
    refine halone o p ⟨ho, hp, hne, ?_, ?_, ?_⟩ ?_
    · rw [hozone, hpzone, hrq.zone]
    · rw [honame, hpname, hrq.name]
    · rw [houniv, hpuniv, hrq.ipUniverse]
    · rw [hoclass, hpclass, hclass]

theorem Keys.nameOf_filter (hkeys : Keys t) {p : DnsRecord → Bool} (hkeys' : Keys (t.filter p))
    (hr : r ∈ t.filter p) : nameOf (t.filter p) r = nameOf t r := by
  unfold nameOf
  cases href : r.referenceDnsRecordId with
  | none => rfl
  | some i =>
    obtain ⟨ref, hmem, hid, -⟩ := hkeys'.reference r hr i href
    dsimp only
    rw [hkeys'.findRecord hmem hid, hkeys.findRecord (List.mem_of_mem_filter hmem) hid]

theorem Keys.cnamesAlone_filter (hkeys : Keys t) {p : DnsRecord → Bool} (hkeys' : Keys (t.filter p))
    (halone : CnamesAlone t) : CnamesAlone (t.filter p) := by
  intro r q hrq
  refine halone r q ⟨⟨List.mem_of_mem_filter hrq.left.1, hrq.left.2⟩,
    ⟨List.mem_of_mem_filter hrq.right.1, hrq.right.2⟩, hrq.ne, hrq.zone, ?_, hrq.ipUniverse⟩
  rw [← hkeys.nameOf_filter hkeys' hrq.left.1, ← hkeys.nameOf_filter hkeys' hrq.right.1]
  exact hrq.name

theorem cnamesAlone_step (hkeys : Keys db.dnsRecord) (halone : CnamesAlone db.dnsRecord)
    {s : Statement × FirstRow (ℕ × ℕ)} (hseen : Seen db s) :
    CnamesAlone (step db s).dnsRecord := by
  rcases step_cases db s with h | ⟨op, given, new, hs, hw, h⟩ | ⟨id, hcheck, h⟩
  · rwa [h]
  · rw [h]
    exact hw.cnamesAlone hkeys hs.of halone (hseen op given new hs hw.toFits)
  · rw [h]
    exact hkeys.cnamesAlone_filter (hkeys.delete hcheck) halone

/-! ## Every run -/

/-- **A `CNAME` is alone at its name, zone, class and universe in every state of a run** whose checks
see what its statements change. -/
theorem cnamesAlone_run (hkeys : Keys db.dnsRecord) (halone : CnamesAlone db.dnsRecord)
    {l : List (Statement × FirstRow (ℕ × ℕ))} (hl : AllSteps step Seen db l) :
    ∀ l', l' <+: l → CnamesAlone (run step db l').dnsRecord := by
  rintro l' ⟨l'', rfl⟩
  refine (run_invariant (I := fun db : Db => Keys db.dnsRecord ∧ CnamesAlone db.dnsRecord)
    (fun db s hdb hs => ?_) ⟨hkeys, halone⟩ (AllSteps.append.mp hl).1).2
  exact ⟨hdb.1.step s, cnamesAlone_step hdb.1 hdb.2 hs⟩

theorem seen_insert (hbefore : beforeTriggers db .insert given = .ok new)
    (hlooked : ∀ r ∈ writeRow db.dnsRecord .insert new, Moved db.dnsRecord .insert new r →
      Looked (db.after .insert new) new r)
    (halike : SpelledAlike (db.after .insert new) new) : Seen db (.insert given, first) := by
  rintro op given' new' ⟨rfl, rfl⟩ hfits -
  obtain rfl := Except.ok.inj (hbefore.symm.trans hfits.before)
  exact ⟨trivial, fun r hr => hlooked r hr.1 hr, halike⟩

/-- A `CNAME` and a record with another name. -/
theorem cnamesAlone_run_www :
    let l : List (Statement × FirstRow (ℕ × ℕ)) :=
      [(.insert (textRecord 1 "www" "IN" "CNAME" "web"), .listed _),
        (.insert (textRecord 2 "mail" "IN" "TXT" "text"), .listed _)]
    CnamesAlone (run step Db.emptyZone l).dnsRecord := by
  intro l
  refine cnamesAlone_run (l := l) .nil (fun r q h => absurd h.left.1 List.not_mem_nil)
    ⟨?_, ?_, trivial⟩ l List.prefix_rfl
  · exact seen_insert rfl (by decide) (by decide)
  · exact seen_insert rfl (by decide) (by decide)

/-- Records beside a `CNAME`: in another class, and in the same class with the name in capitals. -/
theorem cname_beside_other :
    let inserted (r q : DnsRecord) : Prop :=
      let db := run step Db.emptyZone [(.insert r, .listed _), (.insert q, .listed _)]
      ∃ r ∈ db.dnsRecord, r.dnsType = "CNAME" ∧ ∃ q, Beside db.dnsRecord r q
    inserted (textRecord 1 "www" "IN" "CNAME" "web") (textRecord 2 "www" "CH" "TXT" "text") ∧
      inserted (textRecord 1 "www" "IN" "CNAME" "web") (textRecord 2 "WWW" "IN" "TXT" "text") := by
  refine ⟨⟨_, List.mem_cons_self, rfl, _, ⟨⟨List.mem_cons_self, rfl⟩,
    ⟨List.mem_cons_of_mem _ List.mem_cons_self, rfl⟩, by decide, rfl, by decide, rfl⟩⟩,
    ⟨_, List.mem_cons_self, rfl, _, ⟨⟨List.mem_cons_self, rfl⟩,
    ⟨List.mem_cons_of_mem _ List.mem_cons_self, rfl⟩, by decide, rfl, by decide, rfl⟩⟩⟩

end JazzHands.Dns
