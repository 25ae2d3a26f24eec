import JazzHands.Library.Fallible
import Mathlib.Data.List.Dedup
import Mathlib.Data.List.TakeWhile
import Mathlib.Logic.Function.Basic
import Mathlib.Data.Nat.Notation

/-!
# The links of the hosts in `mkpasswdfiles.pl`

`create_host_symlinks` gives every host a directory with a link `mclass` to the directory of its
mclass.  In an older layout the host was such a link itself.

A host directory is a directory, so `unlink` of it, which was right for the older layout, fails.
-/

namespace JazzHands.Mkpasswdfiles

open Library

/-! ## Names and links -/

/-- A component of a path. -/
structure FileName where
  chars : List Char
  nonempty : chars ≠ []
  noSlash : '/' ∉ chars
  deriving DecidableEq

/-- The name of a host, which the pattern `*` finds. -/
structure HostName extends FileName where
  visible : chars.head? ≠ some '.'
  deriving DecidableEq

/-- What a link says, of which Perl takes `""` and `"0"` for false. -/
structure LinkText where
  text : List Char
  isTrue : text ≠ [] ∧ text ≠ ['0']

/-- `$entry.$$`. -/
def HostName.tmp (pid : FileName) (h : HostName) : HostName where
  chars := h.chars ++ '.' :: pid.chars
  nonempty := by simp
  noSlash := by simp [h.noSlash, pid.noSlash]
  visible := by
    cases hc : h.chars with
    | nil => exact absurd hc h.nonempty
    | cons c l => simpa [hc] using h.visible

/-- `"../"`, and `"../mclass/"`. -/
def up : List Char := ['.', '.', '/']

def toMclass : List Char := up ++ ['m', 'c', 'l', 'a', 's', 's', '/']

/-- The capture of `\.\./mclass/([^/]+)` at the head of a text. -/
def mclassHere (s : List Char) : Option (List Char) :=
  let name := (s.drop toMclass.length).takeWhile (· ≠ '/')
  if toMclass.isPrefixOf s = true ∧ name ≠ [] then some name else none

/-- `m|\.\./mclass/([^/]+)|`, where it is first found. -/
def mclassOf : List Char → Option (List Char)
  | [] => none
  | c :: l => (mclassHere (c :: l)).or (mclassOf l)

/-- `"../../mclass/$mclass"`. -/
def linkTo (mclass : FileName) : LinkText where
  text := up ++ toMclass ++ mclass.chars
  isTrue := by simp [up]

/-- The link of a directory in place of that of an entry. -/
def LinkText.oneDown (target : LinkText) : LinkText :=
  if target.text.head? = some '.' then ⟨up ++ target.text, by simp [up]⟩ else target

theorem mclassHere_of_ne {s : List Char} (h : toMclass.isPrefixOf s = false) :
    mclassHere s = none := by
  simp [mclassHere, h]

/-- The dots that go up further are not those before `mclass`. -/
theorem mclassOf_up {l : List Char} : mclassOf (up ++ '.' :: l) = mclassOf ('.' :: l) := by
  have h₀ : mclassHere (up ++ '.' :: l) = none := mclassHere_of_ne rfl
  have h₁ : mclassHere ('.' :: '/' :: '.' :: l) = none := mclassHere_of_ne rfl
  have h₂ : mclassHere ('/' :: '.' :: l) = none := mclassHere_of_ne rfl
  show (mclassHere (up ++ '.' :: l)).or ((mclassHere ('.' :: '/' :: '.' :: l)).or
    ((mclassHere ('/' :: '.' :: l)).or (mclassOf ('.' :: l)))) = _
  rw [h₀, h₁, h₂, Option.none_or, Option.none_or, Option.none_or]

@[simp] theorem mclassOf_linkTo (mclass : FileName) :
    mclassOf (linkTo mclass).text = some mclass.chars := by
  have hall : ∀ c ∈ mclass.chars, decide (c ≠ '/') = true := fun c hc =>
    decide_eq_true fun he => mclass.noSlash (he ▸ hc)
  have hhere : mclassHere (toMclass ++ mclass.chars) = some mclass.chars := by
    rw [mclassHere, List.drop_left, List.takeWhile_eq_self_iff.mpr hall, if_pos]
    exact ⟨List.isPrefixOf_iff_prefix.mpr (List.prefix_append _ _), mclass.nonempty⟩
  show mclassOf (up ++ '.' :: _) = _
  rw [mclassOf_up]
  show (mclassHere (toMclass ++ mclass.chars)).or _ = _
  rw [hhere, Option.some_or]

@[simp] theorem mclassOf_oneDown (target : LinkText) :
    mclassOf target.oneDown.text = mclassOf target.text := by
  unfold LinkText.oneDown
  split_ifs with h
  · obtain ⟨l, hl⟩ := List.head?_eq_some_iff.mp h
    show mclassOf (up ++ target.text) = _
    rw [hl, mclassOf_up]
  · rfl

/-! ## The directory -/

/-- An entry of the directory of the hosts: a directory, with its link `mclass` if it has one, or a
link of the older layout. -/
inductive Entry where
  | dir (mclass : Option LinkText)
  | link (target : LinkText)

abbrev Entries : Type := HostName → Option Entry

/-- The directory of the hosts, and the process id of the run, which no entry has in its name. -/
structure HostsDir where
  entry : Entries
  /-- What the pattern `*` expands into. -/
  names : List HostName
  nodup : names.Nodup
  mem_names : ∀ h, h ∈ names ↔ entry h ≠ none
  pid : FileName
  fresh : ∀ h : HostName, entry (h.tmp pid) = none

/-- `mkdir`, which fails where something is. -/
def mkdir : Option Entry → Option Entry
  | none => some (.dir none)
  | some e => some e

/-- `symlink(target, "$dir/$device/mclass")`, which needs a directory without such a link. -/
def symlinkMclass (target : LinkText) : Option Entry → Option Entry
  | some (.dir none) => some (.dir (some target))
  | e => e

/-- `unlink("$dir/$device/mclass")`. -/
def unlinkMclass : Option Entry → Option Entry
  | some (.dir _) => some (.dir none)
  | e => e

/-- `unlink("$dir/$device")`, which does not delete a directory. -/
def unlinkEntry : Option Entry → Option Entry
  | some (.link _) => none
  | e => e

/-- `readlink("$dir/$device/mclass")`. -/
def readMclass : Option Entry → Option LinkText
  | some (.dir mclass) => mclass
  | _ => none

/-- The link of an entry, in either layout. -/
def linkOf : Option Entry → Option LinkText
  | some (.dir mclass) => mclass
  | some (.link target) => some target
  | none => none

/-- A call that concerns one entry. -/
def Entries.modify (fs : Entries) (h : HostName) (op : Option Entry → Option Entry) : Entries :=
  Function.update fs h (op (fs h))

/-- `rename("$dir/$n", "$dir/$h")`, where there is no `$h`. -/
def Entries.rename (fs : Entries) (n h : HostName) : Entries :=
  Function.update (Function.update fs h (fs n)) n none

/-! ## The loops -/

/-- The conversion of an entry that is a link. -/
def convert (pid : FileName) (fs : Entries) (h : HostName) : Entries :=
  match fs h with
  | some (.link target) =>
    let n := h.tmp pid
    let fs := fs.modify n mkdir
    let fs := fs.modify n (symlinkMclass target.oneDown)
    let fs := fs.modify h unlinkEntry
    fs.rename n h
  | _ => fs

/-- `%old`: the mclasses that the links name, in the order in which they were put in. -/
abbrev Old : Type := List (HostName × List Char)

/-- The body of the first loop. -/
def examine (pid : FileName) (x : Entries × Old) (h : HostName) : Except String (Entries × Old) :=
  let fs := convert pid x.1 h
  match readMclass (fs h) with
  | none => .ok (fs, x.2)
  | some target =>
    match mclassOf target.text with
    | none => .error "can't parse link target $target\n"
    | some mclass => .ok (fs, x.2 ++ [(h, mclass)])

/-- `$new->{$device}`: of the rows of a host `selectall_hashref` keeps the last. -/
def newMclass (rows : List (HostName × FileName)) (h : HostName) : Option FileName :=
  rows.reverse.lookup h

/-- The body of the second loop. -/
def repoint (rows : List (HostName × FileName)) (fs : Entries) (x : HostName × List Char) :
    Entries :=
  match newMclass rows x.1 with
  | some mclass =>
    if mclass.chars ≠ x.2 then
      (fs.modify x.1 unlinkMclass).modify x.1 (symlinkMclass (linkTo mclass))
    else fs
  | none => fs.modify x.1 unlinkEntry

/-- The body of the third loop.  No entry is a plain file, so there is always a `mkdir`. -/
def create (rows : List (HostName × FileName)) (old : Old) (fs : Entries) (h : HostName) :
    Entries :=
  match newMclass rows h with
  | some mclass =>
    let fs := if h ∈ old.map (·.1) then fs else fs.modify h unlinkMclass
    (fs.modify h mkdir).modify h (symlinkMclass (linkTo mclass))
  | none => fs

/-- The order in which `keys` gives the keys of a hash. -/
structure KeyOrder where
  keys : ∀ {α : Type}, List α → List α
  perm : ∀ {α : Type} (l : List α), (keys l).Perm l

/-- `create_host_symlinks` without mclasses. -/
def createHostSymlinks (order : KeyOrder) (rows : List (HostName × FileName)) (d : HostsDir) :
    Except String Entries := do
  let (fs, old) ← d.names.foldlM (examine d.pid) (d.entry, [])
  let fs := (order.keys old).foldl (repoint rows) fs
  .ok ((order.keys (rows.map (·.1)).dedup).foldl (create rows old) fs)

/-- Every host of the mapping has a directory whose link names its mclass, and no other host has a
link. -/
def Settled (rows : List (HostName × FileName)) (fs : Entries) : Prop :=
  (∀ h mclass, newMclass rows h = some mclass →
    ∃ target, fs h = some (.dir (some target)) ∧ mclassOf target.text = some mclass.chars) ∧
  ∀ h, newMclass rows h = none → linkOf (fs h) = none

variable {order : KeyOrder} {rows : List (HostName × FileName)} {d : HostsDir} {fs fs' : Entries}
variable {pid : FileName} {old old' : Old} {h k : HostName} {e : Option Entry} {l : List HostName}

/-! ## The first loop -/

theorem tmp_ne (pid : FileName) (h : HostName) : h.tmp pid ≠ h := by
  intro he
  have hlen := congrArg (fun h : HostName => h.chars.length) he
  simp [HostName.tmp] at hlen

variable {op op' : Option Entry → Option Entry}

@[simp] theorem modify_self :
    fs.modify h op h = op (fs h) := Function.update_self ..

theorem modify_of_ne (hne : k ≠ h) :
    fs.modify h op k = fs k := Function.update_of_ne hne ..

theorem modify_modify :
    (fs.modify h op).modify h op' = fs.modify h (op' ∘ op) := by
  ext1 k
  by_cases hk : k = h
  · subst hk
    simp
  · simp only [modify_of_ne hk]

theorem modify_congr (hop : op (fs h) = op' (fs h)) :
    fs.modify h op = fs.modify h op' := by
  rw [Entries.modify, Entries.modify, hop]

theorem modify_eq_self (hop : op (fs h) = fs h) :
    fs.modify h op = fs := by
  rw [Entries.modify, hop, Function.update_eq_self]

/-- What the conversion makes of an entry. -/
def settle : Option Entry → Option Entry
  | some (.link target) => some (.dir (some target.oneDown))
  | e => e

theorem convert_eq (hfresh : fs (h.tmp pid) = none) : convert pid fs h = fs.modify h settle := by
  have hne := tmp_ne pid h
  unfold convert
  split
  · next target htarget =>
    ext1 k
    by_cases hn : k = h.tmp pid
    · rw [hn, modify_of_ne hne, hfresh]
      simp [Entries.rename]
    by_cases hk : k = h
    · subst hk
      simp [Entries.rename, Entries.modify, Function.update_of_ne hne.symm, Function.update_of_ne hne,
        hfresh, mkdir, symlinkMclass, htarget, settle]
    · simp [Entries.rename, Entries.modify, Function.update_of_ne hn, Function.update_of_ne hk]
  · next hlink =>
    refine (modify_eq_self ?_).symm
    rcases he : fs h with _ | _ | target
    · rfl
    · rfl
    · exact absurd he (hlink target)

/-- The link of a converted entry names what the link of the entry does. -/
theorem readMclass_settle : (readMclass (settle e)).map (mclassOf ·.text) =
    (linkOf e).map (mclassOf ·.text) := by
  rcases e with _ | _ | _ <;> simp [settle, readMclass, linkOf]

@[simp] theorem unlinkEntry_settle : unlinkEntry (settle e) = settle e := by
  rcases e with _ | _ | _ <;> rfl

@[simp] theorem linkOf_settle_eq_none : linkOf (settle e) = none ↔ linkOf e = none := by
  rcases e with _ | _ | _ <;> simp [settle, linkOf]

/-- The mclass that the link of an entry names. -/
def named (e : Option Entry) : Option (List Char) := (linkOf e).bind (mclassOf ·.text)

/-- The link of an entry, if it has one, names a mclass. -/
def Parses (e : Option Entry) : Prop := linkOf e ≠ none → named e ≠ none

theorem examine_eq_ok {x : Entries × Old} (hfresh : fs (h.tmp pid) = none) :
    examine pid (fs, old) h = .ok x ↔
      Parses (fs h) ∧ x = (fs.modify h settle, old ++ ((named (fs h)).map (h, ·)).toList) := by
  unfold examine Parses named
  dsimp only
  rw [convert_eq hfresh, modify_self]
  have hsame := readMclass_settle (e := fs h)
  cases hlink : linkOf (fs h) with
  | none =>
    rw [hlink, Option.map_none, Option.map_eq_none_iff] at hsame
    simp [hsame, eq_comm]
  | some target =>
    rw [hlink, Option.map_some, Option.map_eq_some_iff] at hsame
    obtain ⟨target', hread, htarget⟩ := hsame
    cases hm : mclassOf target.text with
    | none => simp [hread, htarget, hm]
    | some mclass => simp [hread, htarget, hm, eq_comm]

theorem foldlM_examine_eq_ok (hfresh : ∀ h : HostName, fs (h.tmp pid) = none) (hnd : l.Nodup) :
    l.foldlM (examine pid) (fs, old) = .ok (fs', old') ↔
      (∀ h ∈ l, Parses (fs h)) ∧ (∀ h ∈ l, fs' h = settle (fs h)) ∧ (∀ h ∉ l, fs' h = fs h) ∧
        old' = old ++ l.filterMap fun h => (named (fs h)).map (h, ·) := by
  induction l generalizing fs old with
  | nil =>
    simp only [List.foldlM_nil, List.not_mem_nil, false_imp_iff, implies_true, not_false_eq_true,
      true_imp_iff, true_and, List.filterMap_nil, List.append_nil]
    constructor
    · rintro ⟨⟩
      exact ⟨fun _ => rfl, rfl⟩
    · rintro ⟨h, rfl⟩
      rw [show fs' = fs from funext h]
      rfl
  | cons h l ih =>
    obtain ⟨hmem, hnd⟩ := List.nodup_cons.mp hnd
    have hfresh' : ∀ k : HostName, fs.modify h settle (k.tmp pid) = none := by
      intro k
      by_cases hk : k.tmp pid = h
      · rw [hk, modify_self, ← hk, hfresh]
        rfl
      · rw [modify_of_ne hk, hfresh]
    have hrest : ∀ k ∈ l, fs.modify h settle k = fs k := fun k hk =>
      modify_of_ne fun he => hmem (he ▸ hk)
    rw [List.foldlM_cons, bind_ok_iff]
    simp only [examine_eq_ok (hfresh h)]
    have hnamed : (l.filterMap fun k => (named (fs.modify h settle k)).map (k, ·)) =
        l.filterMap fun k => (named (fs k)).map (k, ·) :=
      List.filterMap_congr fun k hk => by rw [hrest k hk]
    constructor
    · rintro ⟨_, ⟨hp, rfl⟩, hl⟩
      obtain ⟨hparse, hin, hout, rfl⟩ := (ih hfresh' hnd).mp hl
      refine ⟨List.forall_mem_cons.mpr ⟨hp, fun k hk => hrest k hk ▸ hparse k hk⟩,
        List.forall_mem_cons.mpr ⟨by rw [hout h hmem, modify_self], fun k hk => ?_⟩,
        fun k hk => ?_, ?_⟩
      · rw [hin k hk, hrest k hk]
      · rw [List.mem_cons, not_or] at hk
        rw [hout k hk.2, modify_of_ne hk.1]
      · rw [hnamed, List.append_assoc, List.filterMap_cons]
        cases named (fs h) <;> rfl
    · rintro ⟨hparse, hin, hout, rfl⟩
      rw [List.forall_mem_cons] at hparse hin
      refine ⟨_, ⟨hparse.1, rfl⟩, (ih hfresh' hnd).mpr ⟨fun k hk => ?_, fun k hk => ?_,
        fun k hk => ?_, ?_⟩⟩
      · rw [hrest k hk]
        exact hparse.2 k hk
      · rw [hin.2 k hk, hrest k hk]
      · by_cases hkh : k = h
        · rw [hkh, hin.1, modify_self]
        · rw [hout k (by simp [hkh, hk]), modify_of_ne hkh]
      · rw [hnamed, List.append_assoc, List.filterMap_cons]
        cases named (fs h) <;> rfl

/-! ## The other loops -/

theorem foldl_modify {α : Type} {f : Entries → α → Entries} {key : α → HostName}
    {op : α → Option Entry → Option Entry} (hf : ∀ fs a, f fs a = fs.modify (key a) (op a))
    {l : List α} (hnd : (l.map key).Nodup) (fs : Entries) :
    (∀ a ∈ l, l.foldl f fs (key a) = op a (fs (key a))) ∧
      ∀ h ∉ l.map key, l.foldl f fs h = fs h := by
  induction l generalizing fs with
  | nil => simp
  | cons a l ih =>
    rw [List.map_cons, List.nodup_cons] at hnd
    obtain ⟨hin, hout⟩ := ih hnd.2 (f fs a)
    rw [List.foldl_cons]
    refine ⟨List.forall_mem_cons.mpr ⟨?_, fun b hb => ?_⟩, fun h hh => ?_⟩
    · rw [hout _ hnd.1, hf, modify_self]
    · rw [hin b hb, hf, modify_of_ne]
      exact fun he => hnd.1 (he ▸ List.mem_map_of_mem hb)
    · rw [List.map_cons, List.mem_cons, not_or] at hh
      rw [hout h hh.2, hf, modify_of_ne hh.1]

/-- What `repoint` does to the entry. -/
def repointed (mclass : Option FileName) (old : List Char) (e : Option Entry) : Option Entry :=
  match mclass with
  | some mclass =>
    if mclass.chars ≠ old then symlinkMclass (linkTo mclass) (unlinkMclass e) else e
  | none => unlinkEntry e

theorem repoint_eq (rows : List (HostName × FileName)) (fs : Entries) (x : HostName × List Char) :
    repoint rows fs x = fs.modify x.1 (repointed (newMclass rows x.1) x.2) := by
  unfold repoint
  cases newMclass rows x.1 with
  | none => rfl
  | some mclass =>
    dsimp only
    by_cases hne : mclass.chars ≠ x.2
    · rw [if_pos hne, modify_modify]
      exact modify_congr (by rw [repointed, if_pos hne]; rfl)
    · rw [if_neg hne]
      exact (modify_eq_self (by rw [repointed, if_neg hne])).symm

/-- What `create` does to the entry. -/
def created (mclass : Option FileName) (isOld : Prop) [Decidable isOld] (e : Option Entry) :
    Option Entry :=
  match mclass with
  | some mclass =>
    symlinkMclass (linkTo mclass) (mkdir (if isOld then e else unlinkMclass e))
  | none => e

theorem create_eq (rows : List (HostName × FileName)) (old : Old) (fs : Entries) (h : HostName) :
    create rows old fs h = fs.modify h (created (newMclass rows h) (h ∈ old.map (·.1))) := by
  unfold create
  cases newMclass rows h with
  | none => exact (modify_eq_self rfl).symm
  | some mclass =>
    dsimp only
    by_cases hold : h ∈ old.map (·.1)
    · rw [if_pos hold, modify_modify]
      exact modify_congr (by rw [created, if_pos hold]; rfl)
    · rw [if_neg hold, modify_modify, modify_modify]
      exact modify_congr (by rw [created, if_neg hold]; rfl)

/-! ## The function -/

/-- The entry that the last two loops make of a converted entry, whose link names `old`. -/
def finished (mclass : Option FileName) (old : Option (List Char)) (e : Option Entry) :
    Option Entry :=
  match old with
  | some m => created mclass True (repointed mclass m e)
  | none => created mclass False e

/-- A host of the mapping ends with a directory whose link names its mclass. -/
theorem finished_some (mclass : FileName) (hparse : Parses e) :
    ∃ target, finished (some mclass) (named e) (settle e) = some (.dir (some target)) ∧
      mclassOf target.text = some mclass.chars := by
  have hempty : finished (some mclass) none (settle e) = some (.dir (some (linkTo mclass))) ∨
      linkOf e ≠ none := by
    rcases e with _ | ⟨_ | _⟩ | _
    · exact Or.inl rfl
    · exact Or.inl rfl
    · exact Or.inr (Option.some_ne_none _)
    · exact Or.inr (Option.some_ne_none _)
  have hsettled : ∀ target m, settle e = some (.dir (some target)) →
      mclassOf target.text = some m → ∃ target',
        finished (some mclass) (some m) (settle e) = some (.dir (some target')) ∧
          mclassOf target'.text = some mclass.chars := by
    intro target m he hm
    rw [he, finished, repointed]
    by_cases hne : mclass.chars ≠ m
    · rw [if_pos hne]
      exact ⟨linkTo mclass, rfl, mclassOf_linkTo mclass⟩
    · rw [if_neg hne]
      exact ⟨target, rfl, by rw [hm, not_not.mp hne]⟩
  cases hn : named e with
  | none =>
    have hlink : linkOf e = none := not_not.mp fun h => hparse h hn
    exact ⟨linkTo mclass, hempty.resolve_right (not_not.mpr hlink), mclassOf_linkTo mclass⟩
  | some m =>
    rcases e with _ | ⟨_ | target⟩ | target
    · cases hn
    · cases hn
    · exact hsettled target m rfl hn
    · exact hsettled target.oneDown m rfl (by rw [mclassOf_oneDown]; exact hn)

theorem finished_none {old : Option (List Char)} : finished none old (settle e) = settle e := by
  cases old with
  | none => rfl
  | some m => exact unlinkEntry_settle

theorem newMclass_eq_none : newMclass rows h = none ↔ h ∉ rows.map (·.1) := by
  rw [newMclass, List.lookup_eq_none_iff, List.mem_map]
  constructor
  · rintro hall ⟨x, hx, rfl⟩
    simpa using hall x (List.mem_reverse.mpr hx)
  · rintro hno x hx
    rw [bne_iff_ne]
    rintro rfl
    exact hno ⟨x, List.mem_reverse.mp hx, rfl⟩

/-- The first loop has put in the hosts whose link names a mclass. -/
theorem mem_old {m : List Char} :
    (h, m) ∈ (l.filterMap fun h => (named (fs h)).map (h, ·)) ↔ h ∈ l ∧ named (fs h) = some m := by
  simp

/-- The hash `%old` has one entry for a host. -/
theorem nodup_old (hnd : l.Nodup) :
    ((l.filterMap fun h => (named (fs h)).map (h, ·)).map (·.1)).Nodup := by
  rw [List.map_filterMap]
  refine hnd.filterMap fun h k a hh hk => ?_
  simp only [Option.map_map, Option.mem_def, Option.map_eq_some_iff, Function.comp] at hh hk
  obtain ⟨_, -, rfl⟩ := hh
  obtain ⟨_, -, rfl⟩ := hk
  rfl

theorem lastLoops_apply (order : KeyOrder) (rows : List (HostName × FileName)) (hnd : l.Nodup) (hl : ∀ h, h ∉ l → fs h = none)
    (h : HostName) :
    let old := l.filterMap fun h => (named (fs h)).map (h, ·)
    (order.keys (rows.map (·.1)).dedup).foldl (create rows old)
        ((order.keys old).foldl (repoint rows) fun h => settle (fs h)) h =
      finished (newMclass rows h) (named (fs h)) (settle (fs h)) := by
  intro old
  have hold : ((order.keys old).map (·.1)).Nodup :=
    ((order.perm old).map _).nodup_iff.mpr (nodup_old hnd)
  obtain ⟨hin, hout⟩ := foldl_modify (repoint_eq rows) hold
    fun h => settle (fs h)
  have hkeys : ((order.keys (rows.map (·.1)).dedup).map id).Nodup := by
    rw [List.map_id]
    exact (order.perm _).nodup_iff.mpr (List.nodup_dedup _)
  obtain ⟨hin', hout'⟩ := foldl_modify (create_eq rows old) hkeys
    ((order.keys old).foldl (repoint rows) fun h => settle (fs h))
  have hlast : ∀ h, (order.keys (rows.map (·.1)).dedup).foldl (create rows old)
      ((order.keys old).foldl (repoint rows) fun h => settle (fs h)) h =
        created (newMclass rows h) (h ∈ old.map (·.1))
          ((order.keys old).foldl (repoint rows) (fun h => settle (fs h)) h) := by
    intro h
    by_cases hmem : h ∈ order.keys (rows.map (·.1)).dedup
    · exact hin' h hmem
    · rw [hout' h (by rwa [List.map_id'])]
      rw [(order.perm _).mem_iff, List.mem_dedup, ← newMclass_eq_none] at hmem
      rw [hmem]
      rfl
  rw [hlast]
  cases hn : named (fs h) with
  | none =>
    have hno : h ∉ old.map (·.1) := by
      rw [List.mem_map]
      rintro ⟨⟨k, m⟩, hkm, rfl⟩
      rw [(mem_old.mp hkm).2] at hn
      cases hn
    rw [hout h (by rwa [((order.perm old).map _).mem_iff])]
    cases newMclass rows h <;> simp [finished, created, hno]
  | some m =>
    have hl : h ∈ l := by
      by_contra hmem
      rw [hl h hmem] at hn
      cases hn
    have hmem : (h, m) ∈ old := mem_old.mpr ⟨hl, hn⟩
    have hyes : h ∈ old.map (·.1) := List.mem_map_of_mem (f := (·.1)) hmem
    rw [hin (h, m) ((order.perm old).mem_iff.mpr hmem)]
    cases newMclass rows h <;> simp [finished, created, hyes]

theorem createHostSymlinks_eq_ok (order : KeyOrder) (rows : List (HostName × FileName)) :
    createHostSymlinks order rows d = .ok fs ↔ (∀ h, Parses (d.entry h)) ∧
      ∀ h, fs h = finished (newMclass rows h) (named (d.entry h)) (settle (d.entry h)) := by
  have hout : ∀ h, h ∉ d.names → d.entry h = none := fun h hh =>
    not_not.mp fun hne => hh ((d.mem_names h).mpr hne)
  have hparses : (∀ h ∈ d.names, Parses (d.entry h)) ↔ ∀ h, Parses (d.entry h) := by
    refine ⟨fun hp h => ?_, fun hp h _ => hp h⟩
    by_cases hh : h ∈ d.names
    · exact hp h hh
    · rw [hout h hh]
      exact fun hlink => absurd rfl hlink
  have hloops := lastLoops_apply order rows d.nodup hout
  unfold createHostSymlinks
  rw [bind_ok_iff]
  constructor
  · rintro ⟨⟨fs₁, old⟩, hrun, hfs⟩
    obtain ⟨hp, hin, hrest, rfl⟩ := (foldlM_examine_eq_ok d.fresh d.nodup).mp hrun
    have hfs₁ : fs₁ = fun h => settle (d.entry h) := by
      ext1 h
      by_cases hh : h ∈ d.names
      · exact hin h hh
      · rw [hrest h hh, hout h hh]
        rfl
    subst hfs₁
    rw [Except.ok.injEq] at hfs
    subst hfs
    exact ⟨hparses.mp hp, hloops⟩
  · rintro ⟨hp, hfs⟩
    refine ⟨(fun h => settle (d.entry h), _), (foldlM_examine_eq_ok d.fresh d.nodup).mpr
      ⟨hparses.mpr hp, fun _ _ => rfl, fun h hh => ?_, rfl⟩, ?_⟩
    · rw [hout h hh]
      rfl
    · rw [Except.ok.injEq]
      ext1 h
      rw [hfs h]
      exact hloops h

theorem mapped_of_ok (hrun : createHostSymlinks order rows d = .ok fs) {mclass : FileName}
    (hm : newMclass rows h = some mclass) :
    ∃ target, fs h = some (.dir (some target)) ∧ mclassOf target.text = some mclass.chars := by
  obtain ⟨hparse, hfs⟩ := (createHostSymlinks_eq_ok order rows).mp hrun
  rw [hfs h, hm]
  exact finished_some mclass (hparse h)

/-- **When the links are those of the mapping.** -/
theorem settled_iff (order : KeyOrder) (rows : List (HostName × FileName)) (d : HostsDir) :
    (∃ fs, createHostSymlinks order rows d = .ok fs ∧ Settled rows fs) ↔
      ∀ h, linkOf (d.entry h) ≠ none → named (d.entry h) ≠ none ∧ newMclass rows h ≠ none := by
  constructor
  · rintro ⟨fs, hrun, -, hout⟩ h hlink
    obtain ⟨hparse, hfs⟩ := (createHostSymlinks_eq_ok order rows).mp hrun
    refine ⟨hparse h hlink, fun hnone => hlink ?_⟩
    have hgone := hout h hnone
    rwa [hfs h, hnone, finished_none, linkOf_settle_eq_none] at hgone
  · intro hcond
    have hparse : ∀ h, Parses (d.entry h) := fun h hlink => (hcond h hlink).1
    have hrun := (createHostSymlinks_eq_ok order rows).mpr
      ⟨hparse, fun _ => rfl⟩
    refine ⟨_, hrun, fun h mclass hm => mapped_of_ok hrun hm, fun h hnone => ?_⟩
    dsimp only
    rw [hnone, finished_none, linkOf_settle_eq_none]
    by_contra hlink
    exact (hcond h hlink).2 hnone

/-- The keys in the order in which they were put in. -/
def KeyOrder.asIs : KeyOrder := ⟨id, fun _ => .refl _⟩

def FileName.web : FileName := ⟨['w', 'e', 'b'], by decide, by decide⟩

def HostName.db1 : HostName := ⟨⟨['d', 'b', '1'], by decide, by decide⟩, by decide⟩

/-- A directory with the host `db1`, whose link names the mclass `web`. -/
def HostsDir.one : HostsDir where
  entry := Function.update (fun _ => none) .db1 (some (.dir (some (linkTo .web))))
  names := [.db1]
  nodup := List.nodup_singleton _
  mem_names h := by
    rw [List.mem_singleton]
    by_cases hh : h = .db1
    · simp [hh]
    · simp [hh]
  pid := ⟨['7'], by decide, by decide⟩
  fresh h := by
    refine Function.update_of_ne (fun he => ?_) ..
    have hdot : '.' ∈ HostName.db1.chars := by
      rw [← he]
      simp [HostName.tmp]
    exact absurd hdot (by decide)

/-- The host is in no mclass any more, and the run leaves its link where it was. -/
theorem not_settled_one :
    (∀ h, newMclass [] h = none) ∧
      (∃ fs, createHostSymlinks .asIs [] .one = .ok fs ∧
        fs .db1 = some (.dir (some (linkTo .web)))) ∧
      ¬ ∃ fs, createHostSymlinks .asIs [] .one = .ok fs ∧ Settled [] fs := by
  have hlink : ∀ fs, createHostSymlinks .asIs [] .one = .ok fs →
      fs .db1 = some (.dir (some (linkTo .web))) := by
    intro fs hrun
    rw [((createHostSymlinks_eq_ok _ _).mp hrun).2 .db1]
    exact finished_none
  have hparse : ∀ h, Parses (HostsDir.one.entry h) := by
    intro h
    by_cases hh : h = .db1
    · subst hh
      simp [Parses, named, HostsDir.one, linkOf]
    · simp [Parses, HostsDir.one, Function.update_of_ne hh, linkOf]
  have hrun := (createHostSymlinks_eq_ok .asIs []).mpr ⟨hparse, fun _ => rfl⟩
  refine ⟨fun _ => rfl, ⟨_, hrun, hlink _ hrun⟩, ?_⟩
  rintro ⟨fs, hrun, -, hout⟩
  have hnone := hout .db1 rfl
  rw [hlink fs hrun] at hnone
  cases hnone

end JazzHands.Mkpasswdfiles
