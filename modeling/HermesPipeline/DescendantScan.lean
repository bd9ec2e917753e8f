/-
The descendants of a process, found in a snapshot of parents.  From every entry the
scan walks up until it meets the root, zero or a process without an entry.
-/
import HermesPipeline.Lib.Chains
import HermesPipeline.Lib.Keyed

namespace HermesPipeline

open Lib Lib.Chains Relation

namespace DescendantScan

section Source

variable (parents : Dict Nat Nat) (root : Nat)

/-- The loop upwards from a process, with so much fuel: whether it meets the root. -/
def walkUp : Nat → Nat → Option Bool
  | 0, _ => none
  | fuel + 1, walk =>
      if walk ≠ 0 ∧ (parents.get? walk).isSome then
        if walk = root then some true
        else walkUp fuel (parents.getD walk 0)
      else some false

/-- What the loop over the entries appends to `found`. -/
def scanEntries (fuel : Nat) : List (Nat × Nat) → Option (List Nat)
  | [] => some []
  | (pid, parent) :: rest => do
      let met ← walkUp parents root fuel parent
      let found ← scanEntries fuel rest
      return (if met then [pid] else []) ++ (if parent = root then [pid] else []) ++ found

/-- `list(dict.fromkeys(found))`. -/
def fromKeys : List Nat → List Nat
  | [] => []
  | pid :: rest => pid :: (fromKeys rest).filter (· ≠ pid)

/-- The Linux branch of `descendant_pids`, on the parents that were read. -/
def descendantPids (fuel : Nat) : Option (List Nat) :=
  (scanEntries parents root fuel parents.rows).map fromKeys

end Source

section Reference

variable (parents : Dict Nat Nat) (root : Nat)

/-- One process is the parent of another. -/
def Parent (pid parent : Nat) : Prop := parents.get? pid = some parent

/-- The loop goes on from one process to its parent. -/
def Passes (pid parent : Nat) : Prop :=
  pid ≠ 0 ∧ pid ≠ root ∧ Parent parents pid parent

/-- The scan ends, without duplicates, with the processes below the root. -/
def Complete : Prop :=
  ∃ fuel found, descendantPids parents root fuel = some found ∧ found.Nodup ∧
    ∀ pid, pid ∈ found ↔ TransGen (Parent parents) pid root

end Reference

section Walking

variable {parents : Dict Nat Nat} {root : Nat}

theorem mem_fromKeys (pid : Nat) (found : List Nat) : pid ∈ fromKeys found ↔ pid ∈ found := by
  induction found with
  | nil => rfl
  | cons first rest ih =>
      rw [fromKeys, List.mem_cons, List.mem_cons, List.mem_filter, ih]
      by_cases hpid : pid = first <;> simp [hpid]

theorem nodup_fromKeys (found : List Nat) : (fromKeys found).Nodup := by
  induction found with
  | nil => exact List.nodup_nil
  | cons first rest ih =>
      rw [fromKeys, List.nodup_cons]
      exact ⟨by simp, ih.filter _⟩

theorem walkUp_of_passes {pid parent : Nat} (hpasses : Passes parents root pid parent)
    (fuel : Nat) : walkUp parents root (fuel + 1) pid = walkUp parents root fuel parent := by
  obtain ⟨hzero, hroot, hparent⟩ := hpasses
  rw [Parent] at hparent
  rw [walkUp, if_pos ⟨hzero, by rw [hparent]; rfl⟩, if_neg hroot, Dict.getD, hparent]
  rfl

/-- One step of the loop: it passes on, or it ends with the root or without it. -/
theorem walkUp_cases (pid : Nat) :
    (∃ parent, Passes parents root pid parent) ∨
      (pid = root ∧ root ≠ 0 ∧ (parents.get? root).isSome = true ∧
        ∀ fuel, walkUp parents root (fuel + 1) pid = some true) ∨
      ((pid = root → root = 0 ∨ parents.get? root = none) ∧
        ∀ fuel, walkUp parents root (fuel + 1) pid = some false) := by
  by_cases hzero : pid = 0
  · refine .inr (.inr ⟨fun hroot => .inl (hroot ▸ hzero), fun fuel => ?_⟩)
    rw [walkUp, if_neg fun h => h.1 hzero]
  · cases hparent : parents.get? pid with
    | none =>
        refine .inr (.inr ⟨fun hroot => .inr (hroot ▸ hparent), fun fuel => ?_⟩)
        rw [walkUp, if_neg]
        rintro ⟨-, hsome⟩
        rw [hparent] at hsome
        cases hsome
    | some parent =>
        have hsome : (parents.get? pid).isSome = true := by rw [hparent]; rfl
        by_cases hroot : pid = root
        · refine .inr (.inl ⟨hroot, hroot ▸ hzero, hroot ▸ hsome, fun fuel => ?_⟩)
          rw [walkUp, if_pos ⟨hzero, hsome⟩, if_pos hroot]
        · exact .inl ⟨parent, hzero, hroot, hparent⟩

/-- What is not finished has passed as many processes as it had fuel. -/
theorem exists_walk_of_none {fuel pid : Nat} (hnone : walkUp parents root fuel pid = none) :
    ∃ walk : List Nat, walk.length = fuel ∧ walk.Pairwise (TransGen (Passes parents root)) ∧
      (∀ p ∈ walk, p ∈ parents.rows.map Prod.fst) ∧
        ∀ p ∈ walk, ReflTransGen (Passes parents root) pid p := by
  induction fuel generalizing pid with
  | zero => exact ⟨[], rfl, List.Pairwise.nil, by simp, by simp⟩
  | succ fuel ih =>
      rcases @walkUp_cases parents root pid with
        ⟨parent, hpasses⟩ | ⟨-, -, -, htrue⟩ | ⟨-, hfalse⟩
      · rw [walkUp_of_passes hpasses] at hnone
        obtain ⟨walk, hlength, hpairwise, hkeys, hreach⟩ := ih hnone
        refine ⟨pid :: walk, by rw [List.length_cons, hlength], ?_, ?_, ?_⟩
        · exact List.pairwise_cons.mpr
            ⟨fun p hp => TransGen.head' hpasses (hreach p hp), hpairwise⟩
        · refine List.forall_mem_cons.mpr ⟨?_, hkeys⟩
          rw [Dict.mem_keys_iff, hpasses.2.2]
          simp
        · exact List.forall_mem_cons.mpr
            ⟨.refl, fun p hp => ReflTransGen.head hpasses (hreach p hp)⟩
      · rw [htrue] at hnone
        cases hnone
      · rw [hfalse] at hnone
        cases hnone

/-- Without a cycle every loop ends with as much fuel as there are entries. -/
theorem walkUp_ends (hacyclic : Acyclic (Passes parents root)) (pid : Nat) :
    ∃ met, walkUp parents root (parents.rows.length + 1) pid = some met := by
  rw [← Option.ne_none_iff_exists']
  intro hnone
  obtain ⟨walk, hlength, hpairwise, hkeys, -⟩ := exists_walk_of_none hnone
  have hle := hacyclic.length_le hpairwise hkeys
  rw [hlength, List.length_map] at hle
  exact absurd hle (Nat.not_succ_le_self _)

/-- On a cycle the loop never ends. -/
theorem walkUp_cycle {pid : Nat} (hcycle : TransGen (Passes parents root) pid pid)
    (fuel : Nat) : walkUp parents root fuel pid = none := by
  induction fuel generalizing pid with
  | zero => rfl
  | succ fuel ih =>
      obtain ⟨parent, hpasses, hnext⟩ := next_on_cycle hcycle
      rw [walkUp_of_passes hpasses]
      exact ih hnext

/-- The loop meets the root when it is reached by passing processes, and has an
entry. -/
theorem walkUp_true {fuel pid : Nat} (hmet : walkUp parents root fuel pid = some true) :
    root ≠ 0 ∧ (parents.get? root).isSome = true ∧
      ReflTransGen (Passes parents root) pid root := by
  induction fuel generalizing pid with
  | zero => cases hmet
  | succ fuel ih =>
      rcases @walkUp_cases parents root pid with
        ⟨parent, hpasses⟩ | ⟨rfl, hzero, hentry, -⟩ | ⟨-, hfalse⟩
      · rw [walkUp_of_passes hpasses] at hmet
        obtain ⟨hzero, hentry, hreach⟩ := ih hmet
        exact ⟨hzero, hentry, .head hpasses hreach⟩
      · exact ⟨hzero, hentry, .refl⟩
      · rw [hfalse] at hmet
        cases hmet

/-- A loop that ends meets the root where it is reached by passing processes. -/
theorem met_of_reaches {fuel pid : Nat} {met : Bool} (hzero : root ≠ 0)
    (hentry : (parents.get? root).isSome = true)
    (hreach : ReflTransGen (Passes parents root) pid root)
    (hends : walkUp parents root fuel pid = some met) : met = true := by
  induction hreach using ReflTransGen.head_induction_on generalizing fuel with
  | refl =>
      cases fuel with
      | zero => cases hends
      | succ fuel =>
          rcases @walkUp_cases parents root root with
            ⟨parent, hpasses⟩ | ⟨-, -, -, htrue⟩ | ⟨hwithout, -⟩
          · exact absurd rfl hpasses.2.1
          · rw [htrue, Option.some.injEq] at hends
            exact hends.symm
          · rcases hwithout rfl with h | h
            · exact absurd h hzero
            · rw [h] at hentry
              cases hentry
  | head hpasses _ ih =>
      cases fuel with
      | zero => cases hends
      | succ fuel =>
          rw [walkUp_of_passes hpasses] at hends
          exact ih hends

end Walking

section Scanning

variable {parents : Dict Nat Nat} {root fuel : Nat}

/-- The loop over the entries ends when every walk does. -/
theorem scanEntries_ends {entries : List (Nat × Nat)}
    (hends : ∀ entry ∈ entries, ∃ met, walkUp parents root fuel entry.2 = some met) :
    ∃ found, scanEntries parents root fuel entries = some found := by
  induction entries with
  | nil => exact ⟨[], rfl⟩
  | cons entry rest ih =>
      obtain ⟨met, hmet⟩ := hends entry List.mem_cons_self
      obtain ⟨found, hfound⟩ := ih fun other hother => hends other (List.mem_cons_of_mem _ hother)
      rw [scanEntries, hmet, hfound]
      exact ⟨_, rfl⟩

/-- What the loop found: the entries whose walk met the root, and its children. -/
theorem scanEntries_spec {entries : List (Nat × Nat)} {found : List Nat}
    (hscan : scanEntries parents root fuel entries = some found) :
    (∀ entry ∈ entries, walkUp parents root fuel entry.2 ≠ none) ∧
      ∀ pid, pid ∈ found ↔ ∃ parent, (pid, parent) ∈ entries ∧
        (walkUp parents root fuel parent = some true ∨ parent = root) := by
  induction entries generalizing found with
  | nil =>
      rw [scanEntries, Option.some.injEq] at hscan
      subst hscan
      simp
  | cons entry rest ih =>
      obtain ⟨pid, parent⟩ := entry
      rw [scanEntries] at hscan
      obtain ⟨met, hmet, hrest⟩ := Option.bind_eq_some_iff.mp hscan
      obtain ⟨later, hlater, hfound⟩ := Option.bind_eq_some_iff.mp hrest
      obtain rfl := Option.some.inj hfound
      obtain ⟨hends, hmem⟩ := ih hlater
      refine ⟨List.forall_mem_cons.mpr ⟨by rw [hmet]; simp, hends⟩, fun other => ?_⟩
      rw [List.mem_append, List.mem_append, hmem]
      have hfirst : (other ∈ if met then [pid] else []) ↔
          other = pid ∧ walkUp parents root fuel parent = some true := by
        rw [hmet]
        cases met <;> simp
      have hchild : (other ∈ if parent = root then [pid] else []) ↔
          other = pid ∧ parent = root := by
        by_cases hparent : parent = root <;> simp [hparent]
      rw [hfirst, hchild]
      constructor
      · rintro ((⟨rfl, h⟩ | ⟨rfl, h⟩) | ⟨parent', hentry, h⟩)
        · exact ⟨parent, List.mem_cons_self, .inl h⟩
        · exact ⟨parent, List.mem_cons_self, .inr h⟩
        · exact ⟨parent', List.mem_cons_of_mem _ hentry, h⟩
      · rintro ⟨parent', hentry, h⟩
        rcases List.mem_cons.mp hentry with hsame | hentry
        · obtain ⟨rfl, rfl⟩ := Prod.mk.inj hsame
          rcases h with h | h
          · exact .inl (.inl ⟨rfl, h⟩)
          · exact .inl (.inr ⟨rfl, h⟩)
        · exact .inr ⟨parent', hentry, h⟩

end Scanning

section Exactness

variable (parents : Dict Nat Nat) (root : Nat)

/-- Where the scan ends and misses nothing: every cycle of processes is broken by
the root, and where the root has more than children it is a process with an entry
that is reached without passing zero. -/
structure Judged : Prop where
  broken : Acyclic (Passes parents root)
  entered : ∀ pid parent, Parent parents pid parent → parent ≠ root →
    TransGen (Parent parents) parent root →
      root ≠ 0 ∧ (parents.get? root).isSome = true ∧
        ReflTransGen (Passes parents root) parent root

variable {parents root}

theorem passes_parent {pid other : Nat}
    (hreach : ReflTransGen (Passes parents root) pid other) :
    ReflTransGen (Parent parents) pid other :=
  ReflTransGen.mono (fun _ _ hpasses => hpasses.2.2) _ _ hreach

theorem judged_of_complete (hcomplete : Complete parents root) : Judged parents root := by
  obtain ⟨fuel, found, hscan, -, hexact⟩ := hcomplete
  obtain ⟨entries, hentries, rfl⟩ := Option.map_eq_some_iff.mp hscan
  obtain ⟨hends, hmem⟩ := scanEntries_spec hentries
  constructor
  · intro pid hcycle
    obtain ⟨parent, hpasses, hnext⟩ := next_on_cycle hcycle
    have hrow := (Dict.get?_eq_some_iff parents pid parent).mp hpasses.2.2
    exact hends _ hrow (walkUp_cycle hnext fuel)
  · intro pid parent hparent hroot hbelow
    have hfound := (hexact pid).mpr (TransGen.head hparent hbelow)
    rw [mem_fromKeys, hmem] at hfound
    obtain ⟨parent', hrow, h⟩ := hfound
    have hsame := (Dict.get?_eq_some_iff parents pid parent').mpr hrow
    rw [hparent, Option.some.injEq] at hsame
    subst hsame
    exact walkUp_true (h.resolve_right hroot)

theorem complete_of_judged (hjudged : Judged parents root) : Complete parents root := by
  have hends : ∀ entry ∈ parents.rows,
      ∃ met, walkUp parents root (parents.rows.length + 1) entry.2 = some met :=
    fun entry _ => walkUp_ends hjudged.broken entry.2
  obtain ⟨entries, hentries⟩ := scanEntries_ends hends
  refine ⟨parents.rows.length + 1, fromKeys entries, ?_, nodup_fromKeys entries, ?_⟩
  · rw [descendantPids, hentries]
    rfl
  · intro pid
    rw [mem_fromKeys, (scanEntries_spec hentries).2]
    constructor
    · rintro ⟨parent, hrow, h⟩
      have hparent : Parent parents pid parent := (Dict.get?_eq_some_iff _ _ _).mpr hrow
      rcases h with hmet | rfl
      · exact TransGen.head' hparent (passes_parent (walkUp_true hmet).2.2)
      · exact .single hparent
    · intro hbelow
      obtain ⟨parent, hparent, hreach⟩ := TransGen.head'_iff.mp hbelow
      have hrow := (Dict.get?_eq_some_iff parents pid parent).mp hparent
      refine ⟨parent, hrow, ?_⟩
      by_cases hroot : parent = root
      · exact .inr hroot
      · refine .inl ?_
        have hdeep := (reflTransGen_iff_eq_or_transGen.mp hreach).resolve_left (Ne.symm hroot)
        obtain ⟨hzero, hentry, hpasses⟩ := hjudged.entered pid parent hparent hroot hdeep
        obtain ⟨met, hmet⟩ := hends _ hrow
        rw [hmet, met_of_reaches hzero hentry hpasses hmet]

end Exactness

/-- The scan is total and complete exactly on such snapshots. -/
theorem descendant_pids_iff (parents : Dict Nat Nat) (root : Nat) :
    Complete parents root ↔ Judged parents root :=
  ⟨judged_of_complete, complete_of_judged⟩

namespace DescendantScanWitness

/-- Two processes that are each other's parent. -/
def cycle : Dict Nat Nat := (Dict.set .empty 2 3).set 3 2

/-- A grandchild whose root has no entry. -/
def orphaned : Dict Nat Nat := (Dict.set .empty 3 2).set 2 1

/-- The scan for process 9 never ends, and the one for process 1 misses process 3. -/
theorem scan_incomplete : ¬ Complete cycle 9 ∧ ¬ Complete orphaned 1 := by
  constructor
  · intro hcomplete
    have htwo : Passes cycle 9 2 3 := ⟨by decide, by decide, rfl⟩
    have hthree : Passes cycle 9 3 2 := ⟨by decide, by decide, rfl⟩
    exact (judged_of_complete hcomplete).broken 2 (.tail (.single htwo) hthree)
  · intro hcomplete
    have hentered := (judged_of_complete hcomplete).entered 3 2 rfl (by decide)
      (.single (show Parent orphaned 2 1 from rfl))
    exact absurd hentered.2.1 (by decide)

end DescendantScanWitness

end DescendantScan

end HermesPipeline
