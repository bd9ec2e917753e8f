/-
Fencing generations over runs of lease calls.  Cancel and cleanup delete the
row that holds the last generation, so the generations of a pipeline increase
exactly as long as no lease is acquired again after its row is gone.
-/
import HermesPipeline.KernelLease
import HermesPipeline.ReferenceCodec
import HermesPipeline.Lib.Machine

namespace HermesPipeline

open Lib KernelController

/-- A lease call of one controller. -/
inductive LeaseCall
  | acquire (workspaceId pipelineId holder : String) (now ttlSeconds : Int)
      (replace : Bool)
  | heartbeat (workspaceId pipelineId holder : String) (generation : Nat)
      (now ttlSeconds : Int)
  | cancel (workspaceId pipelineId : String)
  | cleanup (now : Int)

/-- A store and the leases acquired so far, oldest first. -/
structure LeaseHistory (σ : Type) where
  store : σ
  grants : List LeaseRecord

variable {σ : Type}

namespace LeaseStore

variable (impl : LeaseStore σ)

def start : LeaseHistory σ := ⟨impl.init, []⟩

def next (s : LeaseHistory σ) : LeaseCall → LeaseHistory σ
  | .acquire ws pl holder now ttl replace =>
      match (acquireLease ws pl holder now ttl replace).run impl.handle s.store with
      | (.ok record, store) => ⟨store, s.grants ++ [record]⟩
      | (.error _, store) => ⟨store, s.grants⟩
  | .heartbeat ws pl holder generation now ttl =>
      ⟨((heartbeatLease ws pl holder generation now ttl).run impl.handle
        s.store).2, s.grants⟩
  | .cancel ws pl => ⟨((cancel ws pl).run impl.handle s.store).2, s.grants⟩
  | .cleanup now => ⟨((cleanup now).run impl.handle s.store).2, s.grants⟩

/-- The state after a list of calls. -/
def afterCalls (calls : List LeaseCall) : LeaseHistory σ :=
  calls.foldl impl.next impl.start

/-- An acquire that comes after an earlier grant finds the row of the lease. -/
def Renews (s : LeaseHistory σ) (call : LeaseCall) : Prop :=
  ∀ ws pl holder now ttl replace, call = .acquire ws pl holder now ttl replace →
    impl.fits (grantedLease ws pl holder now ttl none) = true →
    (∃ earlier ∈ s.grants, earlier.key = (ws, pl)) →
      impl.row s.store (ws, pl) ≠ none

end LeaseStore

/-- Later grants of a pipeline have larger generations. -/
def LeaseHistory.Increasing (s : LeaseHistory σ) : Prop :=
  s.grants.Pairwise fun earlier later =>
    earlier.key = later.key → earlier.generation < later.generation

/-- The stored row is the granted lease, renewed or not. -/
def LeaseRecord.IsStored (record : LeaseRecord) (row : Option LeaseRecord) :
    Prop :=
  ∃ stored, row = some stored ∧ stored.holder = record.holder ∧
    stored.generation = record.generation

/-- The generations increase over the whole run, and a granted pair of holder
and generation that is no longer stored at some point passes no later lease
check, at any time. -/
structure Fenced (impl : LeaseStore σ) (calls : List LeaseCall) : Prop where
  increasing : Always impl.next LeaseHistory.Increasing impl.start calls
  dead : ∀ before after, calls = before ++ after →
    ∀ record ∈ (impl.afterCalls before).grants,
      ¬record.IsStored (impl.row (impl.afterCalls before).store record.key) →
        ∀ now, leaseMatches record.holder record.generation now
          (impl.row (impl.afterCalls calls).store record.key) = false

/-- What one call does to the rows and the grants. -/
inductive LeaseEffect (impl : LeaseStore σ) (s : LeaseHistory σ)
    (call : LeaseCall) : LeaseHistory σ → Prop
  | granted {ws pl holder : String} {now ttl : Int} {replace : Bool}
      {record : LeaseRecord} {store : σ}
      (call_eq : call = .acquire ws pl holder now ttl replace)
      (record_eq : record =
        grantedLease ws pl holder now ttl (impl.row s.store (ws, pl)))
      (fits : impl.fits record = true)
      (rows : ∀ key, impl.row store key =
        if key = (ws, pl) ∧ ws ≠ "" then some record else impl.row s.store key) :
      LeaseEffect impl s call ⟨store, s.grants ++ [record]⟩
  | renewed {lease : LeaseRecord} {key : String × String} {expiresAt : Int}
      {store : σ} (found : impl.row s.store key = some lease)
      (rows : ∀ other, impl.row store other =
        if other = lease.key ∧ lease.workspaceId ≠ "" then
          some { lease with expiresAt := expiresAt }
        else impl.row s.store other) :
      LeaseEffect impl s call ⟨store, s.grants⟩
  | dropped {store : σ} (rows : ∀ key, impl.row store key = impl.row s.store key ∨
        impl.row store key = none) :
      LeaseEffect impl s call ⟨store, s.grants⟩

theorem LeaseStore.next_effect (impl : LeaseStore σ) (s : LeaseHistory σ)
    (call : LeaseCall) : LeaseEffect impl s call (impl.next s call) := by
  have hkept : LeaseEffect impl s call ⟨s.store, s.grants⟩ :=
    .dropped fun _ => Or.inl rfl
  cases call with
  | acquire ws pl holder now ttl replace =>
      simp only [next, acquireLease]
      rw [ask, Program.run_bind, Program.run_perform, impl.load]
      simp only
      by_cases hbusy : (leaseBusy now (impl.row s.store (ws, pl)) && !replace) =
          true
      · simp only [hbusy, ↓reduceIte, Program.run_raise]
        exact hkept
      · simp only [hbusy, Bool.false_eq_true, ↓reduceIte]
        rcases impl.run_save s.store (grantedLease ws pl holder now ttl
          (impl.row s.store (ws, pl))) with ⟨store, hrun, hfits, hrows⟩ | hrun
        · rw [hrun]
          exact .granted rfl rfl hfits hrows
        · rw [hrun]
          exact hkept
  | heartbeat ws pl holder generation now ttl =>
      simp only [next, heartbeatLease]
      rw [ask, Program.run_bind, Program.run_perform, impl.load]
      cases hfound : impl.row s.store (ws, pl) with
      | none => exact hkept
      | some lease =>
          simp only
          split
          · rcases impl.run_save s.store { lease with expiresAt := now + ttl }
              with ⟨store, hrun, -, hrows⟩ | hrun
            · rw [hrun]
              exact .renewed hfound hrows
            · rw [hrun]
              exact hkept
          · exact hkept
  | cancel ws pl =>
      simp only [next, KernelController.cancel]
      split
      · exact hkept
      · refine .dropped ?_
        intro key
        simp only [ask, Program.run_perform]
        rw [(impl.delete s.store ws pl).2 key]
        split
        · exact Or.inr rfl
        · exact Or.inl rfl
  | cleanup now =>
      refine .dropped ?_
      intro key
      simp only [KernelController.cleanup, ask, Program.run_perform]
      exact impl.deleteExpired s.store now key

/-- The invariant of a fenced run: a stored row is the last grant of its
pipeline, and no grant of the pipeline has a larger generation. -/
structure FencedState (impl : LeaseStore σ) (s : LeaseHistory σ) : Prop where
  increasing : s.Increasing
  keyed : ∀ key row, impl.row s.store key = some row → row.key = key
  last : ∀ key row, impl.row s.store key = some row →
    ∀ grant ∈ s.grants, grant.key = key → grant.generation ≤ row.generation

section Step

variable {impl : LeaseStore σ} {s s' : LeaseHistory σ} {call : LeaseCall}

theorem FencedState.start (impl : LeaseStore σ) :
    FencedState impl impl.start := by
  refine ⟨List.Pairwise.nil, ?_, ?_⟩ <;> intro key row hrow <;>
    simp [LeaseStore.start, impl.row_init] at hrow

/-- Under the condition a new grant is above all earlier ones. -/
theorem FencedState.lt_granted (hfenced : FencedState impl s)
    (hrenews : impl.Renews s call) {ws pl holder : String} {now ttl : Int}
    {replace : Bool} (hcall : call = .acquire ws pl holder now ttl replace)
    (hfits : impl.fits (grantedLease ws pl holder now ttl
      (impl.row s.store (ws, pl))) = true) {grant : LeaseRecord}
    (hgrant : grant ∈ s.grants) (hkey : grant.key = (ws, pl)) :
    grant.generation < (grantedLease ws pl holder now ttl
      (impl.row s.store (ws, pl))).generation := by
  cases hrow : impl.row s.store (ws, pl) with
  | none =>
      rw [hrow] at hfits
      exact absurd hrow (hrenews ws pl holder now ttl replace hcall hfits
        ⟨grant, hgrant, hkey⟩)
  | some row =>
      exact Nat.lt_succ_of_le (hfenced.last _ row hrow grant hgrant hkey)

theorem FencedState.step (hfenced : FencedState impl s)
    (hrenews : impl.Renews s call) (heffect : LeaseEffect impl s call s') :
    FencedState impl s' := by
  cases heffect with
  | @granted ws pl holder now ttl replace record store hcall hrecord hfits hrows =>
      subst hrecord
      have hbelow : ∀ grant ∈ s.grants, grant.key = (ws, pl) →
          grant.generation < (grantedLease ws pl holder now ttl
            (impl.row s.store (ws, pl))).generation :=
        fun grant hgrant hkey =>
          hfenced.lt_granted hrenews hcall hfits hgrant hkey
      refine ⟨?_, ?_, ?_⟩
      · refine List.pairwise_append.mpr
          ⟨hfenced.increasing, List.pairwise_singleton _ _, ?_⟩
        intro grant hgrant record hrecord hkey
        obtain rfl := List.mem_singleton.mp hrecord
        exact hbelow grant hgrant hkey
      · intro key row hrow
        rw [hrows key] at hrow
        split at hrow
        · next hself =>
            cases hrow
            exact hself.1.symm
        · exact hfenced.keyed key row hrow
      · intro key row hrow grant hgrant hkey
        rw [hrows key] at hrow
        rcases List.mem_append.mp hgrant with hold | hnew
        · split at hrow
          · next hself =>
              cases hrow
              exact Nat.le_of_lt (hbelow grant hold (hkey.trans hself.1))
          · exact hfenced.last key row hrow grant hold hkey
        · obtain rfl := List.mem_singleton.mp hnew
          have hself : (ws, pl) = key := hkey
          split at hrow
          · cases hrow
            exact Nat.le_refl _
          · next hother =>
              have hempty : ws = "" := by
                by_contra hws
                exact hother ⟨hself.symm, hws⟩
              rw [← hself, hempty, impl.row_empty] at hrow
              cases hrow
  | @renewed lease key expiresAt store hfound hrows =>
      have hown := hfenced.keyed key lease hfound
      refine ⟨hfenced.increasing, ?_, ?_⟩
      · intro other row hrow
        rw [hrows other] at hrow
        split at hrow
        · next hself =>
            cases hrow
            exact hself.1.symm
        · exact hfenced.keyed other row hrow
      · intro other row hrow grant hgrant hkey
        rw [hrows other] at hrow
        split at hrow
        · next hself =>
            cases hrow
            exact hfenced.last key lease hfound grant hgrant
              (hkey.trans (hself.1.trans hown))
        · exact hfenced.last other row hrow grant hgrant hkey
  | @dropped store hrows =>
      have hback : ∀ key row, impl.row store key = some row →
          impl.row s.store key = some row := by
        intro key row hrow
        rcases hrows key with hsame | hnone
        · rw [← hsame, hrow]
        · rw [hnone] at hrow
          cases hrow
      exact ⟨hfenced.increasing,
        fun key row hrow => hfenced.keyed key row (hback key row hrow),
        fun key row hrow => hfenced.last key row (hback key row hrow)⟩

/-- A granted lease that is not stored is not stored after the next call. -/
theorem FencedState.not_isStored_step (hfenced : FencedState impl s)
    (hrenews : impl.Renews s call) (heffect : LeaseEffect impl s call s')
    {grant : LeaseRecord} (hgrant : grant ∈ s.grants)
    (hdead : ¬grant.IsStored (impl.row s.store grant.key)) :
    grant ∈ s'.grants ∧ ¬grant.IsStored (impl.row s'.store grant.key) := by
  cases heffect with
  | @granted ws pl holder now ttl replace record store hcall hrecord hfits hrows =>
      subst hrecord
      refine ⟨List.mem_append_left _ hgrant, ?_⟩
      simp only [hrows]
      split
      · next hself =>
          have hlt := hfenced.lt_granted hrenews hcall hfits hgrant hself.1
          rintro ⟨stored, hstored, -, hgeneration⟩
          cases hstored
          omega
      · exact hdead
  | @renewed lease key expiresAt store hfound hrows =>
      refine ⟨hgrant, ?_⟩
      simp only [hrows]
      split
      · next hself =>
          rintro ⟨stored, hstored, hholder, hgeneration⟩
          cases hstored
          apply hdead
          rw [hself.1, hfenced.keyed key lease hfound, hfound]
          exact ⟨lease, rfl, hholder, hgeneration⟩
      · exact hdead
  | dropped hrows =>
      refine ⟨hgrant, ?_⟩
      rcases hrows grant.key with hsame | hnone
      · rw [hsame]
        exact hdead
      · rw [hnone]
        rintro ⟨stored, hstored, -⟩
        cases hstored

/-- An acquire that finds no row after an earlier grant starts again at one. -/
theorem LeaseStore.renews_of_increasing
    (hnext : (impl.next s call).Increasing) : impl.Renews s call := by
  rintro ws pl holder now ttl replace rfl hfits ⟨earlier, hearlier, hkey⟩ hrow
  have heffect : (impl.next s (.acquire ws pl holder now ttl replace)).grants =
      s.grants ++ [grantedLease ws pl holder now ttl none] := by
    simp only [next, acquireLease]
    rw [ask, Program.run_bind, Program.run_perform, impl.load, hrow]
    simp only [leaseBusy, Bool.false_and, Bool.false_eq_true, ↓reduceIte]
    rcases impl.run_save s.store (grantedLease ws pl holder now ttl none) with
      ⟨store, hrun, -, -⟩ | hrun
    · rw [hrun]
    · have hsaved := (impl.save s.store _ hfits).1
      rw [ask, Program.run_bind, Program.run_perform] at hrun
      generalize impl.handle (.saveLease (grantedLease ws pl holder now ttl none))
        s.store = saved at hsaved hrun
      obtain ⟨answer, store⟩ := saved
      cases hsaved
      cases hrun
  rw [LeaseHistory.Increasing, heffect] at hnext
  have hlt := (List.pairwise_append.mp hnext).2.2 earlier hearlier _
    (List.mem_singleton_self _) hkey
  have hpos := earlier.generation_pos
  simp only [grantedLease, nextGeneration] at hlt
  omega

end Step

theorem leaseMatches_eq_false {record : LeaseRecord} {row : Option LeaseRecord}
    (hdead : ¬record.IsStored row) (now : Int) :
    leaseMatches record.holder record.generation now row = false := by
  cases row with
  | none => rfl
  | some stored =>
      by_contra hmatches
      simp only [leaseMatches, Bool.not_eq_false, Bool.and_eq_true,
        decide_eq_true_eq] at hmatches
      exact hdead ⟨stored, rfl, hmatches.1.1, hmatches.1.2⟩

/-- Fencing holds of a run exactly when no lease is acquired again after its
row is gone. -/
theorem LeaseStore.fenced_iff (impl : LeaseStore σ) (calls : List LeaseCall) :
    Fenced impl calls ↔ EachStep impl.next impl.Renews impl.start calls := by
  have hkeep : ∀ s call, FencedState impl s → impl.Renews s call →
      FencedState impl (impl.next s call) := fun s call hfenced hrenews =>
    hfenced.step hrenews (impl.next_effect s call)
  have hincreasing : Always impl.next LeaseHistory.Increasing impl.start calls ↔
      EachStep impl.next impl.Renews impl.start calls :=
    always_iff_eachStep hkeep (fun _ hfenced => hfenced.increasing)
      (fun _ _ _ hnext => renews_of_increasing hnext) (FencedState.start impl)
  constructor
  · intro hfenced
    exact hincreasing.mp hfenced.increasing
  · intro hsteps
    refine ⟨hincreasing.mpr hsteps, ?_⟩
    rintro before after rfl record hrecord hdead now
    obtain ⟨hbefore, hafter⟩ := eachStep_append.mp hsteps
    have hstart : FencedState impl (impl.afterCalls before) ∧
        record ∈ (impl.afterCalls before).grants ∧
        ¬record.IsStored (impl.row (impl.afterCalls before).store record.key) :=
      ⟨hbefore.foldl hkeep (FencedState.start impl), hrecord, hdead⟩
    have hend := hafter.foldl (I := fun s => FencedState impl s ∧
      record ∈ s.grants ∧ ¬record.IsStored (impl.row s.store record.key))
      (fun s call hs hrenews => ⟨hkeep s call hs.1 hrenews,
        hs.1.not_isStored_step hrenews (impl.next_effect s call) hs.2.1 hs.2.2⟩)
      hstart
    apply leaseMatches_eq_false
    rw [afterCalls, List.foldl_append]
    exact hend.2.2

/-- Over both stores: the generations that a run of lease calls hands out
fence exactly when every acquire that follows an earlier grant of its pipeline
finds the row of that lease still stored. -/
theorem lease_generations_fence_iff (codec : Codec) (calls : List LeaseCall) :
    (Fenced (memoryLeases codec) calls ↔
        EachStep (memoryLeases codec).next (memoryLeases codec).Renews
          (memoryLeases codec).start calls) ∧
      (Fenced (sqliteLeases codec) calls ↔
        EachStep (sqliteLeases codec).next (sqliteLeases codec).Renews
          (sqliteLeases codec).start calls) :=
  ⟨(memoryLeases codec).fenced_iff calls, (sqliteLeases codec).fenced_iff calls⟩

namespace LeaseFencingWitness

open ReferenceCodec

/-- The holder acquires, is cancelled, and acquires again. -/
def calls : List LeaseCall :=
  [.acquire "ws_a" "pl_a" "worker-pl_a" 100 1800 false, .cancel "ws_a" "pl_a",
    .acquire "ws_a" "pl_a" "worker-pl_a" 200 1800 false]

/-- Both grants have generation one, and the cancelled pair passes the check
again. -/
theorem lease_generation_restarts :
    let s := (sqliteLeases sampleCodec).afterCalls calls
    s.grants.map LeaseRecord.generation = [1, 1] ∧
      leaseMatches "worker-pl_a" 1 200 (s.store.loadLease "ws_a" "pl_a") = true ∧
      ¬Fenced (memoryLeases sampleCodec) calls ∧
      ¬Fenced (sqliteLeases sampleCodec) calls := by
  have hlast : ∀ {σ : Type} (impl : LeaseStore σ), Fenced impl calls →
      (impl.afterCalls calls).Increasing := fun impl hfenced =>
    always_iff_initial.mp hfenced.increasing calls [] (List.append_nil _).symm
  refine ⟨by decide +kernel, by decide +kernel, ?_, ?_⟩
  · intro hfenced
    exact absurd (hlast _ hfenced)
      (by unfold LeaseHistory.Increasing; decide +kernel)
  · intro hfenced
    exact absurd (hlast _ hfenced)
      (by unfold LeaseHistory.Increasing; decide +kernel)

end LeaseFencingWitness

end HermesPipeline
