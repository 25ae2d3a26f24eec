import JazzHands.Zonegen.Chosen

/-!
# Whether a change is lost

A change record is lost when it is deleted and a zone that it affects is not regenerated.  Which
zones a run generates and which records it deletes is known from `JazzHands.Zonegen.Chosen`; here
the two are compared, zone by zone.
-/

namespace JazzHands.Zonegen

variable {Inet : Type} {o : Options} {env : Environment} {db db' : Db Inet} {out : Outcome Inet}
  {getDomainFromCidr : Inet → String} {r : ChangeRecord Inet} {n : DnsDomain} {s : ℤ}

/-- `v_dns_changes_pending` has a row for the record and the zone. -/
def Affects (getDomainFromCidr : Inet → String) (db : Db Inet) (r : ChangeRecord Inet)
    (n : DnsDomain) : Prop :=
  ∃ hr ∈ vDnsChangesPending getDomainFromCidr db,
    hr.dnsChangeRecordId = r.dnsChangeRecordId ∧ hr.dnsDomainId = n.dnsDomainId

/-- The zone is written with the next serial number, which is stored. -/
def Regenerated (db : Db Inet) (out : Outcome Inet) (n : DnsDomain) : Prop :=
  ∃ s, soaSerial db n.dnsDomainId = some s ∧ (n.dnsDomainName, s + 1) ∈ out.written ∧
    soaSerial out.db n.dnsDomainId = some (s + 1)

/-- A change record is deleted only when every zone that it affects is regenerated; one with a zone
that is not regenerated is there still. -/
def NoChangeLost (getDomainFromCidr : Inet → String) (db : Db Inet) (out : Outcome Inet) : Prop :=
  ∀ r ∈ db.dnsChangeRecord, r ∉ out.db.dnsChangeRecord →
    ∀ n ∈ db.dnsDomain, Affects getDomainFromCidr db r n → Regenerated db out n

/-- A row of the record is taken and its zone not refused, or the trigger deletes the record because
one of its zones is bumped that should not be generated. -/
def Deleted (getDomainFromCidr : Inet → String) (o : Options) (env : Environment) (db : Db Inet)
    (r : ChangeRecord Inet) : Prop :=
  (r.dnsChangeRecordId ≠ 0 ∧ r.dataInsDate < env.now ∧
    ∃ hr ∈ vDnsChangesPending getDomainFromCidr db, hr.dnsChangeRecordId = r.dnsChangeRecordId ∧
      o.takes hr = true ∧ ¬ Refused o db hr.dom) ∨
  ∃ n ∈ db.dnsDomain, Bumped getDomainFromCidr o env db n.dnsDomainName ∧
    Untracks db n.dnsDomainId r

/-- The zones of all records that are deleted are bumped, have a serial number and are not rejected
by `named-checkzone`. -/
def AllGenerated (getDomainFromCidr : Inet → String) (o : Options) (env : Environment)
    (db : Db Inet) : Prop :=
  ∀ r ∈ db.dnsChangeRecord, Deleted getDomainFromCidr o env db r →
    ∀ n ∈ db.dnsDomain, Affects getDomainFromCidr db r n →
      Bumped getDomainFromCidr o env db n.dnsDomainName ∧ env.checkzone n.dnsDomainName = true ∧
        n.dnsDomainId ≠ 0 ∧ soaSerial db n.dnsDomainId ≠ none

/-! ## The outcome -/

section

variable (hdb : Constraints db) (h : generateZones getDomainFromCidr o env db = some out)
include hdb h

theorem generateZones_ok :
    let g := choose getDomainFromCidr o env db
    out.written = writtenZones o env db g ∧ out.db.dnsDomain = db.dnsDomain ∧
      out.db.dnsDomainIpUniverse = db.dnsDomainIpUniverse.map (fun du =>
        if ∃ d ∈ bumpedIds o g, du.IsOf d then du.bump env.now else du) ∧
      out.db.dnsChangeRecord.Sublist db.dnsChangeRecord ∧
      ∀ r, r ∈ out.db.dnsChangeRecord ↔ r ∈ db.dnsChangeRecord ∧
        (∀ d ∈ bumpedIds o g, ¬ Untracks db d r) ∧
          r.dnsChangeRecordId ∉ purgedIds o env db g := by
  dsimp only
  rw [generateZones] at h
  dsimp only at h
  split at h
  · obtain ⟨db', hfold, h⟩ := Option.bind_eq_some_iff.mp h
    obtain ⟨hdomain, huniverse, hsub, hrecord⟩ := foldlM_recordNewgen (nodup_bumpedIds hdb) hfold
    split at h
    · split at h
      · next hnothing =>
        -- a rollback, with nothing to undo
        obtain ⟨hbumped, hpurged⟩ := Bool.and_eq_true_iff.mp hnothing
        rw [List.isEmpty_iff] at hbumped hpurged
        obtain rfl := Option.some.inj h
        simp [hbumped, hpurged]
      · obtain rfl := Option.some.inj h
        refine ⟨rfl, hdomain, huniverse, List.filter_sublist.trans hsub, fun r => ?_⟩
        rw [List.mem_filter, hrecord, decide_eq_true_eq, and_assoc]
    · cases h
  · cases h

theorem Constraints.outcome : Constraints out.db := by
  obtain ⟨-, hdomain, huniverse, hsub, -⟩ := generateZones_ok hdb h
  refine ⟨by rw [hdomain]; exact hdb.domainKey, by rw [hdomain]; exact hdb.nameKey, ?_,
    hdb.changeKey.sublist (hsub.map _)⟩
  have hkey : out.db.dnsDomainIpUniverse.map (fun du => (du.dnsDomainId, du.ipUniverseId)) =
      db.dnsDomainIpUniverse.map fun du => (du.dnsDomainId, du.ipUniverseId) := by
    rw [huniverse, List.map_map]
    refine List.map_congr_left fun du _ => ?_
    simp only [Function.comp_apply]
    split <;> rfl
  rw [hkey]
  exact hdb.universeKey

theorem soaSerial_outcome (hn : n ∈ db.dnsDomain) (hs : soaSerial db n.dnsDomainId = some s)
    (hbumped : n.dnsDomainId ∈ bumpedIds o (choose getDomainFromCidr o env db)) :
    soaSerial out.db n.dnsDomainId = some (s + 1) := by
  obtain ⟨-, hdomain, huniverse, -, -⟩ := generateZones_ok hdb h
  obtain ⟨du, hdu, hof, hs⟩ := (soaSerial_eq_some hdb hn).mp hs
  refine (soaSerial_eq_some (hdb.outcome h) (hdomain ▸ hn)).mpr ⟨du.bump env.now, ?_, hof, ?_⟩
  · rw [huniverse]
    exact List.mem_map.mpr ⟨du, hdu, if_pos ⟨_, hbumped, hof⟩⟩
  · rw [DomainUniverse.bump, hs]
    rfl

end

theorem regenerated_iff (hdb : Constraints db) (hnosoa : o.nosoa = false)
    (h : generateZones getDomainFromCidr o env db = some out) (hn : n ∈ db.dnsDomain) :
    Regenerated db out n ↔ Bumped getDomainFromCidr o env db n.dnsDomainName ∧
      env.checkzone n.dnsDomainName = true ∧ n.dnsDomainId ≠ 0 ∧
        soaSerial db n.dnsDomainId ≠ none := by
  obtain ⟨hwritten, -⟩ := generateZones_ok hdb h
  rw [Regenerated, hwritten]
  constructor
  · rintro ⟨s, hs, hmem, -⟩
    obtain ⟨hcheck, hzero, e, he, heq⟩ := (mem_writtenZones hdb hn).mp hmem
    rw [processSoa, hs, Option.getD_some] at heq
    have hbumps : o.bumps e = true := by
      by_contra hbumps
      rw [if_neg hbumps] at heq
      omega
    exact ⟨(bumped_iff hdb hnosoa).mpr ⟨e, he, hbumps⟩, hcheck, hzero, by simp [hs]⟩
  · rintro ⟨hbumped, hcheck, hzero, hserial⟩
    obtain ⟨s, hs⟩ := Option.ne_none_iff_exists'.mp hserial
    obtain ⟨e, he, hbumps⟩ := (bumped_iff hdb hnosoa).mp hbumped
    refine ⟨s, hs, (mem_writtenZones hdb hn).mpr ⟨hcheck, hzero, e, he, ?_⟩, ?_⟩
    · rw [processSoa, hs, hbumps]
      rfl
    · exact soaSerial_outcome hdb h hn hs ((mem_bumpedIds hdb hnosoa hn).mpr hbumped)

theorem mem_lockDbChanges (hdb : Constraints db) (hr : r ∈ db.dnsChangeRecord) :
    r.dnsChangeRecordId ∈ lockDbChanges env.now db ↔ r.dataInsDate < env.now := by
  rw [lockDbChanges, List.mem_map]
  constructor
  · rintro ⟨r', hr', hid⟩
    obtain ⟨hr', hdate⟩ := List.mem_filter.mp hr'
    obtain rfl := List.inj_on_of_nodup_map hdb.changeKey hr' hr hid
    exact of_decide_eq_true hdate
  · exact fun hdate => ⟨r, List.mem_filter.mpr ⟨hr, decide_eq_true hdate⟩, rfl⟩

theorem deleted_iff (hdb : Constraints db) (hnosoa : o.nosoa = false)
    (h : generateZones getDomainFromCidr o env db = some out) (hr : r ∈ db.dnsChangeRecord) :
    r ∉ out.db.dnsChangeRecord ↔ Deleted getDomainFromCidr o env db r := by
  obtain ⟨-, -, -, -, hrecord⟩ := generateZones_ok hdb h
  have hpurged : r.dnsChangeRecordId ∈ purgedIds o env db (choose getDomainFromCidr o env db) ↔
      r.dnsChangeRecordId ≠ 0 ∧ r.dataInsDate < env.now ∧
        ∃ hr ∈ vDnsChangesPending getDomainFromCidr db,
          hr.dnsChangeRecordId = r.dnsChangeRecordId ∧ o.takes hr = true ∧ ¬ Refused o db hr.dom := by
    rw [mem_purgedIds hdb hnosoa, mem_lockDbChanges hdb hr]
    refine and_congr_right fun _ => and_congr_right fun hdate => ?_
    have hids : (changeids o env db).isEmpty = false := by
      rw [changeids, hnosoa]
      have hmem := (mem_lockDbChanges hdb hr).mpr hdate
      exact Bool.eq_false_iff.mpr fun hempty =>
        List.ne_nil_of_mem hmem (List.isEmpty_iff.mp hempty)
    rw [considered, hids, if_neg Bool.false_ne_true]
    simp only [List.mem_filter]
    refine exists_congr fun hr => ?_
    tauto
  have huntracks : (∃ d ∈ bumpedIds o (choose getDomainFromCidr o env db), Untracks db d r) ↔
      ∃ n ∈ db.dnsDomain, Bumped getDomainFromCidr o env db n.dnsDomainName ∧
        Untracks db n.dnsDomainId r := by
    constructor
    · rintro ⟨d, hd, huntracks⟩
      obtain ⟨x, hx, rfl⟩ := List.mem_map.mp hd
      obtain ⟨n, hn, -, hid⟩ := exists_dnsDomain_of_zones hdb (List.mem_filter.mp hx).1
      rw [← hid] at hd huntracks
      exact ⟨n, hn, (mem_bumpedIds hdb hnosoa hn).mp hd, huntracks⟩
    · rintro ⟨n, hn, hbumped, huntracks⟩
      exact ⟨_, (mem_bumpedIds hdb hnosoa hn).mpr hbumped, huntracks⟩
  rw [hrecord, Deleted, ← hpurged, ← huntracks]
  constructor
  · intro hnot
    by_contra hnone
    obtain ⟨hkept, hall⟩ := not_or.mp hnone
    exact hnot ⟨hr, fun d hd hu => hall ⟨d, hd, hu⟩, hkept⟩
  · rintro (hpurged | ⟨d, hd, huntracks⟩) ⟨-, hall, hkept⟩
    · exact hkept hpurged
    · exact hall d hd huntracks

/-- **No change is lost exactly where all zones of the records that go are generated.** -/
theorem noChangeLost_iff (hdb : Constraints db) (hnosoa : o.nosoa = false)
    (h : generateZones getDomainFromCidr o env db = some out) :
    NoChangeLost getDomainFromCidr db out ↔ AllGenerated getDomainFromCidr o env db := by
  refine forall₂_congr fun r hr => ?_
  rw [deleted_iff hdb hnosoa h hr]
  refine imp_congr_right fun _ => forall₂_congr fun n hn => imp_congr_right fun _ => ?_
  exact regenerated_iff hdb hnosoa h hn

/-! ## A forward and a reverse zone -/

/-- Two zones, and a change to an address in both. -/
def twoZones : Db String where
  dnsDomain := [⟨1, "example.com"⟩, ⟨2, "2.0.192.in-addr.arpa"⟩]
  dnsDomainIpUniverse := [⟨1, 0, some 7, true, none⟩, ⟨2, 0, some 3, true, none⟩]
  ipUniverseVisibility := []
  dnsChangeRecord := [⟨5, some 1, none, some "192.0.2.1", 10⟩]

def plainRun (argv : List String) : Options :=
  ⟨false, false, false, false, false, false, false, false, argv⟩

/-- Nothing is on disk, and `named-checkzone` accepts only some zones. -/
def freshHost (checkzone : String → Bool) : Environment := ⟨20, true, fun _ => none, checkzone, true⟩

def reverseZone : String → String := fun _ => "2.0.192.in-addr.arpa"

theorem twoZones_constraints : Constraints twoZones := by
  constructor <;> decide

/-- Both zones are generated, and the change record goes. -/
theorem noChangeLost_twoZones : ∃ out, generateZones reverseZone (plainRun [])
    (freshHost fun _ => true) twoZones = some out ∧ NoChangeLost reverseZone twoZones out := by
  have hsome : (generateZones reverseZone (plainRun []) (freshHost fun _ => true)
      twoZones).isSome = true := by decide
  obtain ⟨out, h⟩ := Option.isSome_iff_exists.mp hsome
  have hserial : ∀ n ∈ twoZones.dnsDomain,
      n.dnsDomainId ≠ 0 ∧ soaSerial twoZones n.dnsDomainId ≠ none := by decide
  refine ⟨out, h, (noChangeLost_iff twoZones_constraints rfl h).mpr fun r _ _ n hn _ => ?_⟩
  have hbumped : ∀ n ∈ twoZones.dnsDomain, Bumped reverseZone (plainRun [])
      (freshHost fun _ => true) twoZones n.dnsDomainName := by
    intro n hn
    refine ⟨?_, ?_, .inl ?_⟩
    · revert n
      decide
    · show ¬ ∃ z ∈ vDnsDomainNouniverse twoZones, _
      revert n
      decide
    · show ∃ hr ∈ considered reverseZone (plainRun []) (freshHost fun _ => true) twoZones, _
      revert n
      decide
  exact ⟨hbumped n hn, rfl, hserial n hn⟩

/-- The reverse zone is rejected, or left out on the command line; the change record goes. -/
theorem rejected_breaks :
    (∃ out, generateZones reverseZone (plainRun [])
      (freshHost fun dom => dom != "2.0.192.in-addr.arpa") twoZones = some out ∧
        ¬ NoChangeLost reverseZone twoZones out) ∧
    ∃ out, generateZones reverseZone (plainRun ["example.com"]) (freshHost fun _ => true)
      twoZones = some out ∧ ¬ NoChangeLost reverseZone twoZones out := by
  have hlost : ∀ out : Outcome String, (out.db.dnsChangeRecord, out.written) =
      ([], [("example.com", 8)]) → ¬ NoChangeLost reverseZone twoZones out := by
    intro out hout hkept
    obtain ⟨hrecord, hwritten⟩ := Prod.mk.inj hout
    obtain ⟨s, -, hmem, -⟩ := hkept ⟨5, some 1, none, some "192.0.2.1", 10⟩ (by decide)
      (by rw [hrecord]; exact List.not_mem_nil) ⟨2, "2.0.192.in-addr.arpa"⟩ (by decide)
      (by show ∃ hr ∈ vDnsChangesPending reverseZone twoZones, _; decide)
    rw [hwritten] at hmem
    simp at hmem
  constructor
  · have hrun : (generateZones reverseZone (plainRun [])
        (freshHost fun dom => dom != "2.0.192.in-addr.arpa") twoZones).map
          (fun out => (out.db.dnsChangeRecord, out.written)) =
            some ([], [("example.com", 8)]) := by decide
    obtain ⟨out, h, hout⟩ := Option.map_eq_some_iff.mp hrun
    exact ⟨out, h, hlost out hout⟩
  · have hrun : (generateZones reverseZone (plainRun ["example.com"]) (freshHost fun _ => true)
        twoZones).map (fun out => (out.db.dnsChangeRecord, out.written)) =
          some ([], [("example.com", 8)]) := by decide
    obtain ⟨out, h, hout⟩ := Option.map_eq_some_iff.mp hrun
    exact ⟨out, h, hlost out hout⟩

end JazzHands.Zonegen
