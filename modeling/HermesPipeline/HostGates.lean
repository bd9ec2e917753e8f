/-
Hosts that authorize over one state root.  Each call reads its documents at its
own moments and then creates the marker of its binding; however the calls are
interleaved, a binding is accepted once, and only a call that passed every
check uses a gate up.  The creation of the marker is the consumption: a call that
dies right after it was not accepted, and its gate is gone.
-/
import HermesPipeline.HostAuthorization
import HermesPipeline.Lib.Exclusive

namespace HermesPipeline

open Lib

namespace HostAuthorization

/-- How a call ended. -/
inductive Ending
  | accepted (validated : Validated)
  /-- A check raised. -/
  | refused (error : HostError)
  /-- The marker was there: `AuthorizationError`. -/
  | replayed (validated : Validated)
  /-- The directory or the marker could not be created. -/
  | failed
  /-- The marker was created and could not be written or protected. -/
  | broken (validated : Validated)

/-- A call of `validate_authorization` on its way. -/
inductive Host
  | reading (view : HostView)
  /-- Every check passed. -/
  | gated (view : HostView) (validated : Validated)
  /-- The marker was created. -/
  | marked (view : HostView) (validated : Validated)
  | ended (view : HostView) (ending : Ending)

namespace Host

variable (lib : HostLibrary)

/-- The name of the marker of a call. -/
def markerOf (validated : Validated) : String :=
  digestHex validated.runBindingDigest

/-- One step of a call over the names in `used-host-gates`; the creation of the
marker is one step. -/
def advance (host : Host) (markers : List String) : Host × List String :=
  match host with
  | .reading view =>
      match checks lib view with
      | .error error => (.ended view (.refused error), markers)
      | .ok validated => (.gated view validated, markers)
  | .gated view validated =>
      if view.fault = some .before then (.ended view .failed, markers)
      else if markerOf validated ∈ markers then
        (.ended view (.replayed validated), markers)
      else (.marked view validated, markers ++ [markerOf validated])
  | .marked view validated =>
      if view.fault = some .after then (.ended view (.broken validated), markers)
      else (.ended view (.accepted validated), markers)
  | .ended view ending => (.ended view ending, markers)

/-- What an ended call returned or raised. -/
def result? : Host → Option (Except HostError Validated)
  | .ended _ (.accepted validated) => some (.ok validated)
  | .ended _ (.refused error) => some (.error error)
  | .ended _ (.replayed _) => some (.error .authorization)
  | .ended _ .failed => some (.error .other)
  | .ended _ (.broken _) => some (.error .other)
  | _ => none

/-- What a call was authorized for whose marker was created. -/
def consumed? : Host → Option Validated
  | .marked _ validated => some validated
  | .ended _ (.accepted validated) => some validated
  | .ended _ (.broken validated) => some validated
  | _ => none

section Steps

variable {lib} {view : HostView} {validated : Validated} {markers : List String}

theorem advance_refused {error : HostError} (h : checks lib view = .error error) :
    advance lib (.reading view) markers = (.ended view (.refused error), markers) := by
  simp only [advance, h]

theorem advance_gated (h : checks lib view = .ok validated) :
    advance lib (.reading view) markers = (.gated view validated, markers) := by
  simp only [advance, h]

theorem advance_failed (h : view.fault = some .before) :
    advance lib (.gated view validated) markers = (.ended view .failed, markers) := by
  simp only [advance, h, ↓reduceIte]

theorem advance_replayed (h : view.fault ≠ some .before)
    (hused : markerOf validated ∈ markers) :
    advance lib (.gated view validated) markers =
      (.ended view (.replayed validated), markers) := by
  simp only [advance, h, hused, ↓reduceIte]

theorem advance_marked (h : view.fault ≠ some .before)
    (hfresh : markerOf validated ∉ markers) :
    advance lib (.gated view validated) markers =
      (.marked view validated, markers ++ [markerOf validated]) := by
  simp only [advance, h, hfresh, ↓reduceIte]

theorem advance_broken (h : view.fault = some .after) :
    advance lib (.marked view validated) markers =
      (.ended view (.broken validated), markers) := by
  simp only [advance, h, ↓reduceIte]

theorem advance_accepted (h : view.fault ≠ some .after) :
    advance lib (.marked view validated) markers =
      (.ended view (.accepted validated), markers) := by
  simp only [advance, h, ↓reduceIte]

end Steps

/-- The three steps of a call that nothing interrupts. -/
def alone (view : HostView) (markers : List String) : Host × List String :=
  let first := advance lib (.reading view) markers
  let second := advance lib first.1 first.2
  advance lib second.1 second.2

/-- A call that nothing interrupts is `validate_authorization`. -/
theorem alone_eq (view : HostView) (markers : List String) :
    (alone lib view markers).1.result? =
        some (validateAuthorization lib view markers).1 ∧
      (alone lib view markers).2 = (validateAuthorization lib view markers).2 := by
  cases hchecks : checks lib view with
  | error error =>
      simp only [alone, advance_refused hchecks, validateAuthorization, hchecks]
      exact ⟨rfl, rfl⟩
  | ok validated =>
      simp only [alone, advance_gated hchecks, validateAuthorization, hchecks,
        consumeHostGate]
      by_cases hbefore : view.fault = some .before
      · simp only [advance_failed hbefore, hbefore, ↓reduceIte]
        exact ⟨rfl, rfl⟩
      · by_cases hused : markerOf validated ∈ markers
        · simp only [advance_replayed hbefore hused, hbefore, ↓reduceIte,
            show digestHex validated.runBindingDigest ∈ markers from hused]
          exact ⟨rfl, rfl⟩
        · have hfresh : digestHex validated.runBindingDigest ∉ markers := hused
          simp only [advance_marked hbefore hused, hbefore, hfresh, ↓reduceIte]
          by_cases hafter : view.fault = some .after
          · simp only [advance_broken hafter, hafter, ↓reduceIte]
            exact ⟨rfl, rfl⟩
          · simp only [advance_accepted hafter, hafter, ↓reduceIte]
            exact ⟨rfl, rfl⟩

end Host

abbrev HostPool := Pool (List String) Host

abbrev HostLabel := Pool.Label HostView Empty

/-- The calls over one state root. -/
def hostRules (lib : HostLibrary) : Pool.Rules (List String) Host HostView Empty where
  spawn := fun view _ => .reading view
  advance := Host.advance lib
  fork := fun _ _ => none
  change := fun _ markers => markers

/-- A run of one call is the call that nothing interrupts. -/
theorem run_alone (lib : HostLibrary) (view : HostView) (markers : List String) :
    Pool.run (hostRules lib) ⟨markers, []⟩
        [.start view, .advance 0, .advance 0, .advance 0] =
      ⟨(Host.alone lib view markers).2, [(Host.alone lib view markers).1]⟩ := rfl

/-- Two documents with one content, however they are written. -/
def SameDocument (left right : Dict String Json) : Prop :=
  (Json.obj left.rows).Same (.obj right.rows)

/-- Two values of one content that both have a canonical text have the same.  (A
large whole number has one as a float and none as an integer.) -/
def HostLibrary.Canonical (lib : HostLibrary) : Prop :=
  ∀ (left right : Json) (text text' : String), left.Same right →
    lib.codec.canonicalJson left = some text →
    lib.codec.canonicalJson right = some text' → text = text'

/-- Values with one digest have one content. -/
def HostLibrary.CollisionFree (lib : HostLibrary) : Prop :=
  ∀ (left right : Json) (text text' : String),
    lib.codec.canonicalJson left = some text →
    lib.codec.canonicalJson right = some text' →
    lib.codec.sha256Hex text = lib.codec.sha256Hex text' → left.Same right

section Markers

variable {lib : HostLibrary}

theorem digestHex_prefixed (hex : String) : digestHex ("sha256:" ++ hex) = hex := by
  have hstart : "sha256:".toList.isPrefixOf ("sha256:" ++ hex).toList = true := by
    simp [String.toList_append]
  rw [digestHex, if_pos hstart, String.toList_append]
  exact String.ofList_toList

/-- A binding whose keys were checked has no content hash of its own. -/
theorem Passed.marker {view : HostView} {validated : Validated}
    (h : Passed lib view validated) :
    ∃ text, lib.codec.canonicalJson (.obj validated.binding.rows) = some text ∧
      Host.markerOf validated = lib.codec.sha256Hex text := by
  have hrows : (validated.binding.rows.filter fun member =>
      member.1 != "content_hash") = validated.binding.rows := by
    rw [List.filter_eq_self]
    intro member hmember
    have hkeys := h.bindingKeys
    rw [sameNames, Bool.and_eq_true] at hkeys
    have hname : member.1 ∈ bindingFields := by
      simpa using List.all_eq_true.mp hkeys.1 member.1 (List.mem_map_of_mem hmember)
    rw [bne_iff_ne]
    rintro hcontent
    rw [hcontent] at hname
    exact absurd hname (by decide)
  have hdigest := h.bindingDigest
  rw [objectDigest, Codec.contentHash, hrows] at hdigest
  cases htext : lib.codec.canonicalJson (.obj validated.binding.rows) with
  | none =>
      rw [htext] at hdigest
      cases hdigest
  | some text =>
      rw [htext] at hdigest
      refine ⟨text, rfl, ?_⟩
      rw [Host.markerOf, ← Except.ok.inj hdigest, digestHex_prefixed]

/-- Two authorized calls have one marker exactly when their bindings have one
content. -/
theorem marker_eq_iff (hcanonical : lib.Canonical) (hfree : lib.CollisionFree)
    {view view' : HostView} {validated validated' : Validated}
    (h : Passed lib view validated) (h' : Passed lib view' validated') :
    Host.markerOf validated = Host.markerOf validated' ↔
      SameDocument validated.binding validated'.binding := by
  obtain ⟨text, htext, hmarker⟩ := h.marker
  obtain ⟨text', htext', hmarker'⟩ := h'.marker
  rw [hmarker, hmarker']
  constructor
  · exact hfree _ _ text text' htext htext'
  · intro hsame
    rw [hcanonical _ _ _ _ hsame htext htext']

end Markers

section Runs

variable {lib : HostLibrary}

/-- The marker that a call created. -/
def Host.marker? (host : Host) : Option String := host.consumed?.map Host.markerOf

/-- The names in the directory of used gates. -/
def usedGates (markers : List String) : Set String := {name | name ∈ markers}

/-- A call creates at most one marker, and only one that is not there. -/
theorem exclusive (lib : HostLibrary) :
    Pool.Exclusive (hostRules lib) usedGates Host.marker? where
  spawn := fun _ _ => rfl
  fork := fun _ _ => rfl
  change := fun _ _ => rfl
  advance := by
    intro host markers
    change (usedGates (Host.advance lib host markers).2 = usedGates markers ∧ _) ∨ _
    cases host with
    | reading view =>
        left
        cases hchecks : checks lib view with
        | error error =>
            simp only [hostRules, Host.advance_refused hchecks]
            exact ⟨trivial, rfl⟩
        | ok validated =>
            simp only [hostRules, Host.advance_gated hchecks]
            exact ⟨trivial, rfl⟩
    | gated view validated =>
        by_cases hbefore : view.fault = some .before
        · simp only [hostRules, Host.advance_failed hbefore]
          exact Or.inl ⟨trivial, rfl⟩
        · by_cases hused : Host.markerOf validated ∈ markers
          · simp only [hostRules, Host.advance_replayed hbefore hused]
            exact Or.inl ⟨trivial, rfl⟩
          · right
            refine ⟨Host.markerOf validated, hused, rfl, ?_, ?_⟩
            · simp only [hostRules, Host.advance_marked hbefore hused]
              rfl
            · simp only [hostRules, Host.advance_marked hbefore hused]
              ext name
              simp [usedGates, or_comm]
    | marked view validated =>
        left
        by_cases hafter : view.fault = some .after
        · simp only [hostRules, Host.advance_broken hafter]
          exact ⟨trivial, rfl⟩
        · simp only [hostRules, Host.advance_accepted hafter]
          exact ⟨trivial, rfl⟩
    | ended view ending => exact Or.inl ⟨rfl, rfl⟩

/-- What is known of a call at each of its positions. -/
def Host.Sound (lib : HostLibrary) (markers : List String) : Host → Prop
  | .reading _ => True
  | .gated view validated => checks lib view = .ok validated
  | .marked view validated => checks lib view = .ok validated
  | .ended view (.accepted validated) => checks lib view = .ok validated
  | .ended view (.refused error) => checks lib view = .error error
  | .ended view (.replayed validated) =>
      checks lib view = .ok validated ∧ Host.markerOf validated ∈ markers
  | .ended view .failed => view.fault = some .before
  | .ended view (.broken validated) =>
      checks lib view = .ok validated ∧ view.fault = some .after

theorem Host.Sound.mono {markers markers' : List String}
    (hsubset : ∀ name ∈ markers, name ∈ markers') {host : Host}
    (h : host.Sound lib markers) : host.Sound lib markers' := by
  cases host with
  | ended view ending =>
      cases ending with
      | replayed validated => exact ⟨h.1, hsubset _ h.2⟩
      | _ => exact h
  | _ => exact h

theorem advance_subset (host : Host) (markers : List String) :
    ∀ name ∈ markers, name ∈ (Host.advance lib host markers).2 := by
  intro name hname
  rcases (exclusive lib).advance host markers with ⟨htaken, -⟩ | ⟨new, -, -, -, htaken⟩
  · exact (Set.ext_iff.mp htaken name).mpr hname
  · exact (Set.ext_iff.mp htaken name).mpr (Or.inr hname)

theorem step_subset (pool : HostPool) (label : HostLabel) :
    ∀ name ∈ pool.shared,
      name ∈ (Pool.step (hostRules lib) pool label).shared := by
  intro name hname
  cases label with
  | start view => exact hname
  | change outside => cases outside
  | advance i =>
      cases hhost : pool.threads[i]? with
      | none =>
          rw [Pool.step_absent (hostRules lib) hhost]
          exact hname
      | some host =>
          rw [Pool.step_advance (hostRules lib) hhost]
          exact advance_subset host pool.shared name hname

theorem Host.Sound.advance {markers : List String} {host : Host}
    (h : host.Sound lib markers) :
    (Host.advance lib host markers).1.Sound lib (Host.advance lib host markers).2 := by
  cases host with
  | reading view =>
      cases hchecks : checks lib view with
      | error error =>
          rw [advance_refused hchecks]
          exact hchecks
      | ok validated =>
          rw [advance_gated hchecks]
          exact hchecks
  | gated view validated =>
      by_cases hbefore : view.fault = some .before
      · rw [advance_failed hbefore]
        exact hbefore
      · by_cases hused : markerOf validated ∈ markers
        · rw [advance_replayed hbefore hused]
          exact ⟨h, hused⟩
        · rw [advance_marked hbefore hused]
          exact h
  | marked view validated =>
      by_cases hafter : view.fault = some .after
      · rw [advance_broken hafter]
        exact ⟨h, hafter⟩
      · rw [advance_accepted hafter]
        exact h
  | ended view ending => exact h

/-- Every call of a run is sound. -/
theorem sound_run (lib : HostLibrary) (initial : List String)
    (labels : List HostLabel) :
    ∀ host ∈ (Pool.run (hostRules lib) ⟨initial, []⟩ labels).threads,
      host.Sound lib (Pool.run (hostRules lib) ⟨initial, []⟩ labels).shared := by
  induction labels using List.reverseRecOn with
  | nil => simp [Pool.run]
  | append_singleton labels label ih =>
      rw [Pool.run, List.foldl_append]
      apply Pool.threads_step (I := fun markers host => Host.Sound lib markers host)
      · exact fun _ _ => trivial
      · intro i host _ hhost
        exact (ih host (List.mem_of_getElem? hhost)).advance
      · intro i host _ _ child hchild
        cases hchild
      · intro k host _ hhost
        have hsound := ih host (List.mem_of_getElem? hhost)
        exact hsound.mono (step_subset _ label)

variable (lib) in
/-- What a step of a call does to the call and to the directory. -/
theorem threads_advance {pool : HostPool} {i : Nat} {host : Host}
    (hhost : pool.threads[i]? = some host) :
    (Pool.step (hostRules lib) pool (.advance i)).threads[i]? =
        some (Host.advance lib host pool.shared).1 ∧
      (Pool.step (hostRules lib) pool (.advance i)).shared =
        (Host.advance lib host pool.shared).2 := by
  have hlt : i < pool.threads.length := by
    by_contra hge
    rw [List.getElem?_eq_none (by omega)] at hhost
    cases hhost
  rw [Pool.step_advance (hostRules lib) hhost]
  refine ⟨?_, rfl⟩
  simp [hostRules, hlt]

/-- The call at a place created the marker of its binding. -/
def ConsumedAt (pool : HostPool) (i : Nat) (validated : Validated) : Prop :=
  (pool.threads[i]?).bind Host.consumed? = some validated

/-- What single use means for the calls over one state root. -/
structure SingleUse (lib : HostLibrary) (initial : List String)
    (pool : HostPool) : Prop where
  /-- No two calls are accepted for bindings with one content. -/
  accepted_once : ∀ (i j : Nat) view view' validated validated',
    pool.threads[i]? = some (Host.ended view (.accepted validated)) →
    pool.threads[j]? = some (Host.ended view' (.accepted validated')) →
    SameDocument validated.binding validated'.binding → i = j
  /-- A gate is used up by a call that passed every check and created the
  marker, so not by one that was refused. -/
  used_iff : ∀ name, name ∈ pool.shared ↔ name ∈ initial ∨
    ∃ i validated, ConsumedAt pool i validated ∧ name = Host.markerOf validated
  consumed_passed : ∀ i validated, ConsumedAt pool i validated →
    ∃ view, checks lib view = .ok validated
  /-- A call that a check refused created no marker, nor did a replay or a call
  that could not create one. -/
  refused_unused : ∀ (i : Nat) view ending,
    pool.threads[i]? = some (Host.ended view ending) →
    (∀ validated, ending ≠ .accepted validated ∧ ending ≠ .broken validated) →
    ∀ validated, ¬ ConsumedAt pool i validated
  /-- A call that died after its marker was created used the gate up: every later
  call with the binding is a replay. -/
  died_used : ∀ (i : Nat) view validated,
    pool.threads[i]? = some (Host.ended view (.broken validated)) →
    ∀ view' validated', checks lib view' = .ok validated' →
      view'.fault ≠ some .before →
      SameDocument validated.binding validated'.binding →
      validateAuthorization lib view' pool.shared = (.error .authorization, pool.shared)
  /-- A replay follows another call that used the gate of the same binding. -/
  replay_of : ∀ (i : Nat) view validated,
    pool.threads[i]? = some (Host.ended view (.replayed validated)) →
    Host.markerOf validated ∈ initial ∨ ∃ j validated', j ≠ i ∧
      ConsumedAt pool j validated' ∧
      SameDocument validated'.binding validated.binding
  /-- A valid call whose gate no call used up is accepted. -/
  later_accepted : ∀ view validated, checks lib view = .ok validated →
    view.fault = none → Host.markerOf validated ∉ initial →
    (∀ i validated', ConsumedAt pool i validated' →
      ¬ SameDocument validated'.binding validated.binding) →
    (validateAuthorization lib view pool.shared).1 = .ok validated ∧
    (Pool.run (hostRules lib) pool
      [.start view, .advance pool.threads.length, .advance pool.threads.length,
        .advance pool.threads.length]).threads[pool.threads.length]? =
      some (Host.ended view (.accepted validated))

theorem consumedAt_marker {pool : HostPool} {i : Nat} {validated : Validated}
    (h : ConsumedAt pool i validated) :
    Pool.Holds Host.marker? pool i (Host.markerOf validated) := by
  obtain ⟨host, hhost, hconsumed⟩ := Option.bind_eq_some_iff.mp h
  simp [Pool.Holds, hhost, Host.marker?, hconsumed]

theorem holds_marker_iff {pool : HostPool} {i : Nat} {name : String} :
    Pool.Holds Host.marker? pool i name ↔
      ∃ validated, ConsumedAt pool i validated ∧ name = Host.markerOf validated := by
  constructor
  · intro hholds
    obtain ⟨host, hhost, hmarker⟩ := Option.bind_eq_some_iff.mp hholds
    obtain ⟨validated, hconsumed, rfl⟩ := Option.map_eq_some_iff.mp hmarker
    exact ⟨validated, by simp [ConsumedAt, hhost, hconsumed], rfl⟩
  · rintro ⟨validated, hconsumed, rfl⟩
    exact consumedAt_marker hconsumed

theorem Host.Sound.checks_of_consumed {markers : List String} {host : Host}
    (h : host.Sound lib markers) {validated : Validated}
    (hconsumed : host.consumed? = some validated) :
    ∃ view, checks lib view = .ok validated := by
  cases host with
  | reading view => cases hconsumed
  | gated view other => cases hconsumed
  | marked view other =>
      cases hconsumed
      exact ⟨view, h⟩
  | ended view ending =>
      cases ending with
      | accepted other =>
          cases hconsumed
          exact ⟨view, h⟩
      | broken other =>
          cases hconsumed
          exact ⟨view, h.1⟩
      | refused error => cases hconsumed
      | replayed other => cases hconsumed
      | failed => cases hconsumed

theorem consumedAt_of_thread {pool : HostPool} {i : Nat} {host : Host}
    {validated : Validated} (hhost : pool.threads[i]? = some host)
    (hconsumed : host.consumed? = some validated) : ConsumedAt pool i validated := by
  rw [ConsumedAt, hhost]
  exact hconsumed

/-- A call that a check refused, a replay and a call that could not create a
marker used nothing. -/
theorem not_consumedAt_of_ended {pool : HostPool} {i : Nat} {view : HostView}
    {ending : Ending} (hi : pool.threads[i]? = some (Host.ended view ending))
    (hother : ∀ validated, ending ≠ .accepted validated ∧ ending ≠ .broken validated)
    (validated : Validated) : ¬ ConsumedAt pool i validated := by
  intro hconsumed
  rw [ConsumedAt, hi] at hconsumed
  cases ending with
  | accepted other => exact (hother other).1 rfl
  | broken other => exact (hother other).2 rfl
  | refused error => cases hconsumed
  | replayed other => cases hconsumed
  | failed => cases hconsumed

section Kept

variable {initial : List String} {pool : HostPool}

/-- Every call is sound, and the directory holds the initial markers and those
that the calls created, each created by one call. -/
structure Kept (lib : HostLibrary) (initial : List String) (pool : HostPool) :
    Prop where
  sound : ∀ host ∈ pool.threads, host.Sound lib pool.shared
  used_iff : ∀ name, name ∈ pool.shared ↔ name ∈ initial ∨
    ∃ i validated, ConsumedAt pool i validated ∧ name = Host.markerOf validated
  one : ∀ i j validated validated', ConsumedAt pool i validated →
    ConsumedAt pool j validated' →
    Host.markerOf validated = Host.markerOf validated' → i = j

theorem kept_run (lib : HostLibrary) (initial : List String)
    (labels : List HostLabel) :
    Kept lib initial (Pool.run (hostRules lib) ⟨initial, []⟩ labels) := by
  have hclaimed := Pool.claimed_run (exclusive lib) initial labels
  refine ⟨sound_run lib initial labels, fun name => ?_, ?_⟩
  · have htaken := hclaimed.taken_iff name
    simp only [holds_marker_iff] at htaken
    exact htaken
  · intro i j validated validated' hi hj hmarker
    exact hclaimed.one i j _ (consumedAt_marker hi) (hmarker ▸ consumedAt_marker hj)

/-- A call at a place of the pool is sound. -/
theorem Kept.at_thread (hkept : Kept lib initial pool) {i : Nat} {host : Host}
    (hi : pool.threads[i]? = some host) : host.Sound lib pool.shared :=
  hkept.sound host (List.mem_of_getElem? hi)

theorem Kept.consumed_passed (hkept : Kept lib initial pool) {i : Nat}
    {validated : Validated} (hconsumed : ConsumedAt pool i validated) :
    ∃ view, checks lib view = .ok validated := by
  obtain ⟨host, hhost, hvalidated⟩ := Option.bind_eq_some_iff.mp hconsumed
  exact (hkept.at_thread hhost).checks_of_consumed hvalidated

theorem marker_eq_iff_of_checks (hcanonical : lib.Canonical) (hfree : lib.CollisionFree)
    {view view' : HostView} {validated validated' : Validated}
    (hchecks : checks lib view = .ok validated)
    (hchecks' : checks lib view' = .ok validated') :
    Host.markerOf validated = Host.markerOf validated' ↔
      SameDocument validated.binding validated'.binding :=
  marker_eq_iff hcanonical hfree (checks_ok hchecks) (checks_ok hchecks')

/-- A marker that was not there before the run was created for the content of its
binding. -/
theorem Kept.used_by (hkept : Kept lib initial pool) (hcanonical : lib.Canonical)
    (hfree : lib.CollisionFree) {view : HostView} {validated : Validated}
    (hchecks : checks lib view = .ok validated)
    (hmarked : Host.markerOf validated ∈ pool.shared) :
    Host.markerOf validated ∈ initial ∨ ∃ j validated',
      ConsumedAt pool j validated' ∧
      SameDocument validated'.binding validated.binding := by
  rcases (hkept.used_iff _).mp hmarked with hinitial | ⟨j, validated', hconsumed, hmarker⟩
  · exact Or.inl hinitial
  · obtain ⟨view', hchecks'⟩ := hkept.consumed_passed hconsumed
    exact Or.inr ⟨j, validated', hconsumed,
      (marker_eq_iff_of_checks hcanonical hfree hchecks' hchecks).mp hmarker.symm⟩

/-- A marker that is there makes a call with its binding a replay. -/
theorem validateAuthorization_of_marked {markers : List String} {view : HostView}
    {validated : Validated} (hchecks : checks lib view = .ok validated)
    (hbefore : view.fault ≠ some .before) (hmarked : Host.markerOf validated ∈ markers) :
    validateAuthorization lib view markers = (.error .authorization, markers) := by
  have hmarker : digestHex validated.runBindingDigest ∈ markers := hmarked
  simp only [validateAuthorization, hchecks, consumeHostGate, hbefore, hmarker,
    ↓reduceIte]

theorem validateAuthorization_of_unmarked {markers : List String} {view : HostView}
    {validated : Validated} (hchecks : checks lib view = .ok validated)
    (hfault : view.fault = none) (hfresh : Host.markerOf validated ∉ markers) :
    (validateAuthorization lib view markers).1 = .ok validated := by
  have hbefore : view.fault ≠ some .before := by simp [hfault]
  have hafter : view.fault ≠ some .after := by simp [hfault]
  have hmarker : digestHex validated.runBindingDigest ∉ markers := hfresh
  simp only [validateAuthorization, hchecks, consumeHostGate, hbefore, hafter,
    hmarker, ↓reduceIte]

/-- A call that starts where its marker is not there is accepted after three
steps. -/
theorem run_of_unmarked {view : HostView} {validated : Validated}
    (hchecks : checks lib view = .ok validated) (hfault : view.fault = none)
    (hfresh : Host.markerOf validated ∉ pool.shared) :
    (Pool.run (hostRules lib) pool
      [.start view, .advance pool.threads.length, .advance pool.threads.length,
        .advance pool.threads.length]).threads[pool.threads.length]? =
      some (Host.ended view (.accepted validated)) := by
  have hbefore : view.fault ≠ some .before := by simp [hfault]
  have hafter : view.fault ≠ some .after := by simp [hfault]
  have hstarted : (Pool.step (hostRules lib) pool (.start view)).threads[
      pool.threads.length]? = some (.reading view) := by
    simp [Pool.step, hostRules]
  have hgated := threads_advance lib hstarted
  simp only [Host.advance_gated hchecks] at hgated
  have hshared : (Pool.step (hostRules lib) (Pool.step (hostRules lib) pool
      (.start view)) (.advance pool.threads.length)).shared = pool.shared :=
    hgated.2
  have hmarked := threads_advance lib hgated.1
  simp only [hshared, Host.advance_marked hbefore hfresh] at hmarked
  have haccepted := threads_advance lib hmarked.1
  simp only [Host.advance_accepted hafter] at haccepted
  exact haccepted.1

end Kept

/-- Host gates are single use in every run. -/
theorem host_gates_single_use (lib : HostLibrary) (hcanonical : lib.Canonical)
    (hfree : lib.CollisionFree) (initial : List String) (labels : List HostLabel) :
    SingleUse lib initial (Pool.run (hostRules lib) ⟨initial, []⟩ labels) := by
  have hkept := kept_run lib initial labels
  generalize Pool.run (hostRules lib) ⟨initial, []⟩ labels = pool at hkept
  refine
    { accepted_once := ?_
      used_iff := hkept.used_iff
      consumed_passed := fun _ _ => hkept.consumed_passed
      refused_unused := fun _ _ _ => not_consumedAt_of_ended
      died_used := ?_
      replay_of := ?_
      later_accepted := ?_ }
  · intro i j view view' validated validated' hi hj hsame
    exact hkept.one i j validated validated' (consumedAt_of_thread hi rfl)
      (consumedAt_of_thread hj rfl) ((marker_eq_iff_of_checks hcanonical hfree
        (hkept.at_thread hi) (hkept.at_thread hj)).mpr hsame)
  · intro i view validated hi view' validated' hchecks' hbefore hsame
    have hdied : checks lib view = .ok validated ∧ view.fault = some .after :=
      hkept.at_thread hi
    have hmarker := (marker_eq_iff_of_checks hcanonical hfree hdied.1 hchecks').mpr hsame
    refine validateAuthorization_of_marked hchecks' hbefore ?_
    exact (hkept.used_iff _).mpr
      (Or.inr ⟨i, validated, consumedAt_of_thread hi rfl, hmarker.symm⟩)
  · intro i view validated hi
    obtain ⟨hchecks, hmarked⟩ : checks lib view = .ok validated ∧
        Host.markerOf validated ∈ pool.shared := hkept.at_thread hi
    rcases hkept.used_by hcanonical hfree hchecks hmarked with
      hinitial | ⟨j, validated', hconsumed, hsame⟩
    · exact Or.inl hinitial
    · refine Or.inr ⟨j, validated', ?_, hconsumed, hsame⟩
      -- a replayed call created no marker
      rintro rfl
      rw [ConsumedAt, hi] at hconsumed
      cases hconsumed
  · intro view validated hchecks hfault hinitial hnone
    have hfresh : Host.markerOf validated ∉ pool.shared := by
      intro hmarked
      rcases hkept.used_by hcanonical hfree hchecks hmarked with
        hold | ⟨j, validated', hconsumed, hsame⟩
      · exact hinitial hold
      · exact hnone j validated' hconsumed hsame
    exact ⟨validateAuthorization_of_unmarked hchecks hfault hfresh,
      run_of_unmarked hchecks hfault hfresh⟩

end Runs

end HostAuthorization

namespace HostGatesWitness

open HostAuthorization HostAuthorizationWitness

theorem canonical : sampleLibrary.Canonical := by
  intro left right text text' hsame htext htext'
  have htexts : sampleLibrary.codec.canonicalJson left =
      sampleLibrary.codec.canonicalJson right :=
    congrArg (fun value : Json => some value.toText) hsame
  rw [htext, htext', Option.some.injEq] at htexts
  exact htexts

theorem collisionFree : sampleLibrary.CollisionFree := by
  intro left right text text' hleft hright hdigest
  cases hleft
  cases hright
  exact Json.toText_injective hdigest

/-- Two hosts with one binding, step by step in turn. -/
def race : List HostLabel :=
  [.start (sampleView commit), .start (sampleView commit), .advance 0, .advance 1,
    .advance 0, .advance 1, .advance 0, .advance 1]

theorem race_single_use :
    SingleUse sampleLibrary [] (Pool.run (hostRules sampleLibrary) ⟨[], []⟩ race) :=
  host_gates_single_use sampleLibrary canonical collisionFree [] race

/-- A call whose marker cannot be written, from its start to its end. -/
def diedPool (lib : HostLibrary) (view : HostView) : HostPool :=
  Pool.run (hostRules lib) ⟨[], []⟩
    [.start { view with fault := some .after }, .advance 0, .advance 0, .advance 0]

/-- A call that dies after its marker was created has used the gate up for the
valid call that follows. -/
theorem used_by_died {lib : HostLibrary} {view : HostView} {validated : Validated}
    (hchecks : checks lib view = .ok validated) (hquiet : view.fault = none) :
    (∃ host, (diedPool lib view).threads = [host] ∧
        host.result? = some (.error .other)) ∧
      (validateAuthorization lib view []).1 = .ok validated ∧
      (validateAuthorization lib view (diedPool lib view).shared).1 =
        .error .authorization := by
  have hdying : checks lib { view with fault := some .after } = .ok validated := hchecks
  have hdied : validateAuthorization lib { view with fault := some .after } [] =
      (.error .other, [digestHex validated.runBindingDigest]) := by
    simp [validateAuthorization, hdying, consumeHostGate]
  obtain ⟨hresult, hshared⟩ :=
    Host.alone_eq lib { view with fault := some .after } []
  rw [hdied] at hresult hshared
  rw [diedPool, run_alone, hshared]
  refine ⟨⟨_, rfl, hresult⟩, ?_, ?_⟩
  · simp [validateAuthorization, hchecks, consumeHostGate, hquiet]
  · simp [validateAuthorization, hchecks, consumeHostGate, hquiet]

/-- The call ends with an `OSError`, nothing was accepted and nothing is a replay,
yet the valid call that follows is refused. -/
theorem died_call_uses_gate :
    (∃ host, (diedPool sampleLibrary (sampleView commit)).threads = [host] ∧
        host.result? = some (.error .other)) ∧
      (∃ validated, (validateAuthorization sampleLibrary (sampleView commit) []).1 =
        .ok validated) ∧
      (validateAuthorization sampleLibrary (sampleView commit)
        (diedPool sampleLibrary (sampleView commit)).shared).1 =
          .error .authorization := by
  obtain ⟨hdied, hvalid, hrefused⟩ :=
    used_by_died (checks_view id FingerprintWitness.digests commit) rfl
  exact ⟨hdied, ⟨_, hvalid⟩, hrefused⟩

end HostGatesWitness

end HermesPipeline
