/-
Runtimes that start over one state root, and commands of the shim that remove stale
descriptors beside them, in any order and with crashes anywhere.
-/
import HermesPipeline.DescriptorValidators
import HermesPipeline.Lib.Machine
import HermesPipeline.Lib.Pool

namespace HermesPipeline

namespace RuntimeStart

open Lib
open ProcessIdentity (Observation alive)

/-- What is in the descriptor file. -/
inductive Contents
  | document (members : Dict String Json)
  /-- A file that cannot be read, or that holds no JSON object. -/
  | broken
  /-- A file whose reading raises what neither reader catches: bytes that are no UTF-8,
  or a JSON value that is nested too deeply. -/
  | unread

/-- `RELEASE`. -/
def release : String := "hermes-pipeline-0.1.0-slice-00-05-spike"

/-- `MAX_PORT_ATTEMPTS`. -/
def maxPortAttempts : Nat := 3

theorem requiredFields_nodup : DescriptorValidators.requiredFields.Nodup := by decide

/-- `build_descriptor`. -/
def buildDescriptor (pid : Int) (startIdentity creationTime : String) (marker : Json)
    (port : Int) (token : String) (tokenGeneration : Int) (stateRootIdentity : String) :
    Dict String Json where
  rows :=
    [("descriptor_version", .int DescriptorValidators.descriptorVersion),
      ("protocol_version", .int DescriptorValidators.protocolVersion),
      ("pid", .int pid),
      ("start_identity", .str startIdentity),
      ("creation_time", .str creationTime),
      ("process_start_marker", marker),
      ("port", .int port),
      ("token", .str token),
      ("token_generation", .int tokenGeneration),
      ("release", .str release),
      ("state_root_identity", .str stateRootIdentity)]
  unique := requiredFields_nodup

/-- Where a runtime stands in `main` and `_serve`. -/
inductive Phase
  | starting
  | locked
  /-- In `_remove_stale_descriptor`, with a descriptor that was read. -/
  | checking (document : Dict String Json)
  | removing
  | cleaned
  | attempt (n : Nat)
  | written (n : Nat) (document : Dict String Json)
  | serving (n : Nat) (document : Dict String Json)
  /-- Before `_remove_descriptor_now`; the attempt that follows, if one does. -/
  | retracting (next : Option Nat)
  /-- `_serve` has returned. -/
  | finished (served : Bool)
  | exited (served : Bool)
  | crashed

/-- A runtime; what the system answers about its pid as long as it runs, and whether the
last descriptor that it was to remove has stayed. -/
structure Runtime where
  pid : Int
  self : Observation
  token : String
  phase : Phase
  left : Bool

/-- What one step does to the state root. -/
inductive Effect
  | nothing
  | acquire
  | release
  | clear
  /-- A removal that the guard of the state root or the system refuses. -/
  | refused
  | write (document : Dict String Json)

/-- Whether the last removal was refused, after one more step. -/
@[simp] def Effect.left : Effect → Bool → Bool
  | .refused, _ => true
  | .clear, _ | .write _, _ => false
  | .nothing, before | .acquire, before | .release, before => before

/-- What a step meets outside of the runtime. -/
structure Chance where
  /-- The answer about a pid that no runtime of this state root has. -/
  outside : Observation
  startIdentity : String
  creationTime : String
  port : Int
  /-- `SPIKE_FAIL_BIND`. -/
  failBind : Bool
  /-- Whether `write_descriptor` reports problems. -/
  problems : Bool
  /-- Whether `uvicorn.run` can bind the port. -/
  binds : Bool
  /-- Whether `uvicorn.run` returns; else it ends with an `OSError` or with code 3. -/
  returns : Bool
  /-- Whether `remove_descriptor_if_inside` can remove the file. -/
  unlinks : Bool

/-- What `remove_descriptor_if_inside` does. -/
def Chance.removal (chance : Chance) : Effect := if chance.unlinks then .clear else .refused

/-- A command of the shim that may remove the descriptor. It keeps who wrote the
descriptor that it checks. -/
inductive Command
  | invoked
  | described
  | looked (document : Dict String Json) (author : Option Nat)
  | condemned (author : Option Nat)
  | done

/-- The state root with its runtimes and commands. No code reads who wrote the
descriptor. -/
structure World where
  file : Option Contents
  author : Option Nat
  holder : Option Nat
  runtimes : List Runtime
  commands : List Command

def World.initial (file : Option Contents) : World := ⟨file, none, none, [], []⟩

namespace Phase

/-- The lock of the state root is held. -/
@[simp] def holds : Phase → Bool
  | .starting | .exited _ | .crashed => false
  | _ => true

@[simp] def living : Phase → Bool
  | .exited _ | .crashed => false
  | _ => true

/-- The descriptor that was written for a port that is to be served or is served. -/
@[simp] def published : Phase → Option (Dict String Json)
  | .written _ document | .serving _ document => some document
  | _ => none

/-- The start marker has been read. -/
@[simp] def marked : Phase → Bool
  | .attempt _ | .written _ _ | .serving _ _ | .retracting _ => true
  | _ => false

/-- Where a runtime can be while the descriptor is its own. -/
@[simp] def leaves : Phase → Bool
  | .written _ _ | .serving _ _ | .retracting _ | .crashed => true
  | .finished served | .exited served => served
  | _ => false

end Phase

/-- `read_descriptor` of the runtime; the outer `none` is a raised exception. -/
def readDescriptor : Option Contents → Option (Option (Dict String Json))
  | some (.document document) =>
      if (DescriptorValidators.Runtime.validateDescriptor document).isEmpty then
        some (some document)
      else some none
  | some .unread => none
  | _ => some none

/-- `read_descriptor` of the shim; the outer `none` is a raised exception. -/
def shimReadDescriptor : Option Contents → Option (Option (Dict String Json))
  | some (.document document) =>
      (DescriptorValidators.Shim.validateDescriptor document).map fun problems =>
        if problems.isEmpty then some document else none
  | some .unread => none
  | _ => some none

/-- `marker or {"value": "", "source": "unavailable"}`. -/
def markerDocument (self : Observation) : Json :=
  match ProcessIdentity.Runtime.readProcessStartMarker self with
  | some (some marker) => .obj [("value", .str marker.value), ("source", .str marker.source)]
  | _ => .obj [("value", .str ""), ("source", .str "unavailable")]

def markerOf (document : Dict String Json) : Json :=
  (document.get? "process_start_marker").getD .null

/-- An answer about the pid of a runtime that runs: its marker, and that it runs. -/
def Truthful (seen self : Observation) : Prop :=
  seen.nt = self.nt ∧
    ProcessIdentity.Shim.readProcessStartMarker seen =
      ProcessIdentity.Shim.readProcessStartMarker self ∧
    alive seen = some true

instance (seen self : Observation) : Decidable (Truthful seen self) :=
  inferInstanceAs (Decidable (_ ∧ _ ∧ _))

/-- What the system answers about the pid of a descriptor. -/
def World.answer (s : World) (outside : Observation) (document : Dict String Json) :
    Observation :=
  match s.runtimes.find? fun r =>
      r.phase.living && DescriptorValidators.Shim.pidOf document == some r.pid with
  | some r => if Truthful outside r.self then outside else r.self
  | none => outside

section Steps

variable (pyStr : Option Json → String) (identity : String)

/-- `_descriptor_with_port`. -/
def descriptorWithPort (r : Runtime) (chance : Chance) : Dict String Json :=
  buildDescriptor r.pid chance.startIdentity chance.creationTime (markerDocument r.self)
    chance.port r.token 1 identity

/-- The next step of `main`; `free` says whether the lock can be had. -/
def act (r : Runtime) (free : Bool) (file : Option Contents)
    (answer : Dict String Json → Observation) (chance : Chance) : Phase × Effect :=
  match r.phase with
  | .starting => if free then (.locked, .acquire) else (.exited false, .nothing)
  | .locked =>
      match readDescriptor file with
      | none => (.exited false, .release)
      | some none => (.cleaned, .nothing)
      | some (some document) => (.checking document, .nothing)
  | .checking document =>
      match ProcessIdentity.Runtime.processMatchesIdentity pyStr (answer document)
          (markerOf document) with
      | none => (.exited false, .release)
      | some true => (.cleaned, .nothing)
      | some false => (.removing, .nothing)
  | .removing => (.cleaned, chance.removal)
  | .cleaned =>
      match ProcessIdentity.Runtime.readProcessStartMarker r.self with
      | some (some _) => (.attempt 0, .nothing)
      | _ => (.exited false, .release)
  | .attempt n =>
      if n < maxPortAttempts then
        if chance.failBind then (.retracting (some (n + 1)), .nothing)
        else if chance.problems then (.retracting none, .nothing)
        else (.written n (descriptorWithPort identity r chance),
          .write (descriptorWithPort identity r chance))
      else (.finished false, .nothing)
  | .written n document =>
      if chance.binds then (.serving n document, .nothing)
      else (.retracting (some (n + 1)), .nothing)
  | .retracting (some n) => (.attempt n, chance.removal)
  | .retracting none => (.finished false, chance.removal)
  | .serving n _ =>
      if chance.returns then (.finished true, .nothing)
      else (.retracting (some (n + 1)), .nothing)
  | .finished served => (.exited served, .release)
  | .exited served => (.exited served, .nothing)
  | .crashed => (.crashed, .nothing)

def World.apply (s : World) (i : Nat) : Effect → World
  | .nothing | .refused => s
  | .acquire => { s with holder := some i }
  | .release => { s with holder := none }
  | .clear => { s with file := none, author := none }
  | .write document => { s with file := some (.document document), author := some i }

/-- The next step of a command that removes a stale descriptor, where the removal goes
through just when `unlinks` says so. -/
def World.obey (s : World) (outside : Observation) (unlinks : Bool) :
    Command → Command × World
  | .invoked =>
      match shimReadDescriptor s.file with
      | some (some _) => (.described, s)
      | _ => (.done, s)
  | .described =>
      match shimReadDescriptor s.file with
      | none => (.done, s)
      | some none => (.condemned s.author, s)
      | some (some document) => (.looked document s.author, s)
  | .looked document author =>
      match DescriptorValidators.Shim.isStale document (s.answer outside document) with
      | some true => (.condemned author, s)
      | _ => (.done, s)
  | .condemned _ => (.done, if unlinks then { s with file := none, author := none } else s)
  | .done => (.done, s)

inductive Label
  /-- The system starts a runtime under a pid that no other one has. -/
  | launch (pid : Int) (self : Observation) (token : String)
  | advance (i : Nat) (chance : Chance)
  | crash (i : Nat)
  | invoke
  | command (j : Nat) (outside : Observation) (unlinks : Bool)

def step (s : World) : Label → World
  | .launch pid self token =>
      if alive self = some true ∧ ∀ r ∈ s.runtimes, r.phase.living = true → r.pid ≠ pid then
        { s with runtimes := s.runtimes ++ [⟨pid, self, token, .starting, false⟩] }
      else s
  | .advance i chance =>
      match s.runtimes[i]? with
      | none => s
      | some r =>
          let moved := act pyStr identity r s.holder.isNone s.file
            (s.answer chance.outside) chance
          { s.apply i moved.2 with
            runtimes := s.runtimes.set i
              { r with phase := moved.1, left := moved.2.left r.left } }
  | .crash i =>
      match s.runtimes[i]? with
      | none => s
      | some r =>
          if r.phase.living then
            { s with
              runtimes := s.runtimes.set i { r with phase := .crashed }
              holder := if s.holder = some i then none else s.holder }
          else s
  | .invoke => { s with commands := s.commands ++ [.invoked] }
  | .command j outside unlinks =>
      match s.commands[j]? with
      | none => s
      | some c =>
          let moved := s.obey outside unlinks c
          { moved.2 with commands := s.commands.set j moved.1 }

/-- The state after a schedule. -/
def run (s : World) (labels : List Label) : World := labels.foldl (step pyStr identity) s

end Steps

section Documents

variable {identity : String} {r : Runtime}

/-- The start marker of a runtime can be read. -/
def Readable (r : Runtime) : Prop :=
  ∃ marker, ProcessIdentity.Runtime.readProcessStartMarker r.self = some (some marker)

/-- A descriptor that a runtime writes. -/
def BuiltBy (identity : String) (r : Runtime) (document : Dict String Json) : Prop :=
  Readable r ∧ ∃ chance, document = descriptorWithPort identity r chance

theorem markerDocument_of_readable (hreadable : Readable r) :
    ∃ value, ProcessIdentity.Shim.readProcessStartMarker r.self = some (some value) ∧
      markerDocument r.self = .obj [("value", .str value),
        ("source", .str (ProcessIdentity.platformSource r.self))] := by
  obtain ⟨marker, hmarker⟩ := hreadable
  rw [markerDocument, hmarker]
  rw [ProcessIdentity.readProcessStartMarker_eq] at hmarker
  cases hread : ProcessIdentity.Shim.readProcessStartMarker r.self with
  | none =>
      rw [hread] at hmarker
      cases hmarker
  | some value =>
      rw [hread] at hmarker
      obtain ⟨value, rfl, rfl⟩ := Option.map_eq_some_iff.mp (Option.some.inj hmarker)
      exact ⟨value, rfl, rfl⟩

theorem built_common (chance : Chance) {members : List (String × Json)} {value : String}
    (hmarker : markerDocument r.self = .obj members)
    (hvalue : Json.member? members "value" = some (.str value)) :
    DescriptorValidators.Common (descriptorWithPort identity r chance) where
  names := rfl
  descriptorVersion := rfl
  protocolVersion := rfl
  marker := ⟨members, value, congrArg some hmarker, hvalue⟩

theorem built_ints (chance : Chance) :
    DescriptorValidators.NumbersAreInts (descriptorWithPort identity r chance) := by
  intro field hfield
  simp only [DescriptorValidators.numberFields, List.mem_cons, List.not_mem_nil,
    or_false] at hfield
  rcases hfield with rfl | rfl | rfl
  · exact ⟨r.pid, rfl⟩
  · exact ⟨chance.port, rfl⟩
  · exact ⟨1, rfl⟩

/-- Both sides can read what a runtime writes. -/
theorem built_read {document : Dict String Json} (hbuilt : BuiltBy identity r document) :
    readDescriptor (some (.document document)) = some (some document) ∧
      shimReadDescriptor (some (.document document)) = some (some document) := by
  obtain ⟨hreadable, chance, rfl⟩ := hbuilt
  obtain ⟨value, -, hmarker⟩ := markerDocument_of_readable hreadable
  have hcommon : DescriptorValidators.Common (descriptorWithPort identity r chance) :=
    built_common chance hmarker rfl
  have hints : DescriptorValidators.NumbersAreInts (descriptorWithPort identity r chance) :=
    built_ints chance
  have hruntime := DescriptorValidators.runtime_ok_iff.mpr ⟨hcommon, hints⟩
  have hshim := DescriptorValidators.shim_ok_iff.mpr
    ⟨hcommon, DescriptorValidators.numbersReadable_of_ints hints, by
      refine ⟨fun field hfield => ?_, fun members hmembers => ?_⟩
      · simp only [DescriptorValidators.textFields, List.mem_cons, List.not_mem_nil,
          or_false] at hfield
        rcases hfield with rfl | rfl | rfl | rfl | rfl
        · exact ⟨_, rfl⟩
        · exact ⟨_, rfl⟩
        · exact ⟨_, rfl⟩
        · exact ⟨_, rfl⟩
        · exact ⟨_, rfl⟩
      · have hsame : some (markerDocument r.self) = some (.obj members) := hmembers
        rw [hmarker] at hsame
        cases hsame
        exact ⟨_, rfl⟩⟩
  constructor
  · rw [readDescriptor, hruntime]
    rfl
  · rw [shimReadDescriptor, hshim]
    rfl

/-- Neither side finds the descriptor of a runtime that runs to be stale. -/
theorem built_matches (pyStr : Option Json → String) {document : Dict String Json}
    (hbuilt : BuiltBy identity r document) {seen : Observation}
    (hseen : Truthful seen r.self) :
    ProcessIdentity.Runtime.processMatchesIdentity pyStr seen (markerOf document) = some true ∧
      DescriptorValidators.Shim.isStale document seen = some false := by
  obtain ⟨hreadable, chance, rfl⟩ := hbuilt
  obtain ⟨value, hread, hmarker⟩ := markerDocument_of_readable hreadable
  obtain ⟨hnt, hsame, halive⟩ := hseen
  rw [← hsame] at hread
  have hdocument : markerOf (descriptorWithPort identity r chance) = .obj
      [("value", .str value), ("source", .str (ProcessIdentity.platformSource r.self))] := hmarker
  have hsource : ProcessIdentity.platformSource r.self = ProcessIdentity.platformSource seen := by
    rw [ProcessIdentity.platformSource, ProcessIdentity.platformSource, hnt]
  constructor
  · rw [hdocument, ProcessIdentity.runtime_of_current hread rfl, if_pos, halive]
    exact ⟨congrArg some hsource, .inl rfl⟩
  · have hmatch : ProcessIdentity.Shim.processMatchesIdentity seen
        (markerOf (descriptorWithPort identity r chance)) = some true := by
      rw [hdocument, ProcessIdentity.shim_of_current hread rfl, if_pos (.inl rfl), halive]
    have hpid : DescriptorValidators.Shim.pidOf (descriptorWithPort identity r chance) =
        some r.pid := rfl
    rw [DescriptorValidators.Shim.isStale, hpid, Option.bind_some, ← markerOf, hmatch]
    rfl

end Documents

section Invariants

variable {pyStr : Option Json → String} {identity : String} {s : World}

/-- What a step of a runtime can do. -/
structure Acts (identity : String) (r : Runtime) (free : Bool) (phase : Phase)
    (effect : Effect) : Prop where
  acquire : effect = .acquire → free = true ∧ phase.holds = true
  touch : effect = .release ∨ effect = .clear ∨ (∃ document, effect = .write document) →
    r.phase.holds = true
  holds : phase.holds = true → effect = .acquire ∨ r.phase.holds = true ∧ effect ≠ .release
  keeps : r.phase.holds = true → effect = .release ∨ phase.holds = true
  living : phase.living = true → r.phase.living = true
  write : ∀ document, effect = .write document → phase.leaves = true ∧
    r.phase.marked = true ∧ ∃ chance, document = descriptorWithPort identity r chance
  published : ∀ document, phase.published = some document →
    effect = .write document ∨ r.phase.published = some document ∧ effect = .nothing
  marked : phase.marked = true → r.phase.marked = true ∨ Readable r
  leaves : r.phase.leaves = true →
    effect = .clear ∨ effect = .refused ∨ phase.leaves = true

theorem act_spec (r : Runtime) (free : Bool) (file : Option Contents)
    (answer : Dict String Json → Observation) (chance : Chance) :
    Acts identity r free (act pyStr identity r free file answer chance).1
      (act pyStr identity r free file answer chance).2 := by
  rw [act]
  cases hphase : r.phase with
  | starting => cases free <;> constructor <;> simp_all
  | locked =>
      simp only
      split <;> constructor <;> simp_all
  | checking document =>
      simp only
      split <;> constructor <;> simp_all
  | cleaned =>
      simp only
      split
      · next marker hmarker =>
          have hreadable : Readable r := ⟨marker, hmarker⟩
          constructor <;> simp_all
      · constructor <;> simp_all
  | attempt n =>
      simp only
      split
      · split
        · constructor <;> simp_all
        · split
          · constructor <;> simp_all
          · have hbuilt : ∃ other, descriptorWithPort identity r chance =
                descriptorWithPort identity r other := ⟨chance, rfl⟩
            constructor <;> simp_all
      · constructor <;> simp_all
  | written n document =>
      simp only
      split <;> constructor <;> simp_all
  | serving n document =>
      simp only
      split <;> constructor <;> simp_all
  | removing =>
      simp only [Chance.removal]
      split <;> constructor <;> simp_all
  | retracting next =>
      cases next with
      | none =>
          simp only [Chance.removal]
          split <;> constructor <;> simp_all
      | some n =>
          simp only [Chance.removal]
          split <;> constructor <;> simp_all
  | finished served | exited served | crashed => constructor <;> simp_all

/-- A runtime that crashes does nothing but lose the lock. -/
theorem crash_spec (r : Runtime) (free : Bool) :
    Acts identity r free .crashed (if r.phase.holds then .release else .nothing) := by
  cases hholds : r.phase.holds <;> constructor <;> simp_all

/-- What holds in every state that is reached. -/
structure Sound (identity : String) (s : World) : Prop where
  lock : ∀ i r, s.runtimes[i]? = some r → r.phase.holds = true → s.holder = some i
  held : ∀ i, s.holder = some i → ∃ r, s.runtimes[i]? = some r ∧ r.phase.holds = true
  pids : ∀ (i j : Nat) (r q : Runtime), s.runtimes[i]? = some r → s.runtimes[j]? = some q →
    r.phase.living = true → q.phase.living = true → r.pid = q.pid → i = j
  alive : ∀ r ∈ s.runtimes, alive r.self = some true
  marked : ∀ r ∈ s.runtimes, r.phase.marked = true → Readable r
  authored : ∀ a, s.author = some a → ∃ r document, s.runtimes[a]? = some r ∧
    (r.phase.leaves = true ∨ r.left = true) ∧ s.file = some (.document document) ∧ BuiltBy identity r document
  looked : ∀ c ∈ s.commands, ∀ document a, c = .looked document (some a) →
    ∃ r, s.runtimes[a]? = some r ∧ BuiltBy identity r document
  condemned : ∀ c ∈ s.commands, ∀ a, c = .condemned (some a) →
    ∃ r, s.runtimes[a]? = some r ∧ r.phase.living = false

/-- The descriptor that a runtime has published stands. -/
def Standing (s : World) : Prop :=
  ∀ i r document, s.runtimes[i]? = some r → r.phase.published = some document →
    s.file = some (.document document) ∧ s.author = some i

/-- A command removes no published descriptor of another runtime than the one whose
descriptor it checked. -/
def Checked (s : World) : Label → Prop
  | .command j _ true => ∀ a, s.commands[j]? = some (.condemned a) →
      ∀ i, s.author = some i →
        (∃ r, s.runtimes[i]? = some r ∧ r.phase.published.isSome = true) → a = some i
  | _ => True

theorem published_holds {phase : Phase} {document : Dict String Json}
    (hpublished : phase.published = some document) : phase.holds = true := by
  cases phase <;> first | rfl | cases hpublished

theorem living_of_published {phase : Phase} {document : Dict String Json}
    (hpublished : phase.published = some document) : phase.living = true := by
  cases phase <;> first | rfl | cases hpublished

theorem getElem?_set_cases {α : Type} {l : List α} {i k : Nat} {old new found : α}
    (hold : l[i]? = some old) (hfound : (l.set i new)[k]? = some found) :
    k = i ∧ found = new ∨ k ≠ i ∧ l[k]? = some found := by
  obtain ⟨hlength, -⟩ := List.getElem?_eq_some_iff.mp hold
  by_cases hk : k = i
  · subst hk
    rw [List.getElem?_set_self hlength] at hfound
    exact .inl ⟨rfl, (Option.some.inj hfound).symm⟩
  · rw [List.getElem?_set_ne (Ne.symm hk)] at hfound
    exact .inr ⟨hk, hfound⟩

theorem getElem?_set_of_some {α : Type} {l : List α} {i : Nat} {old new : α}
    (hold : l[i]? = some old) : (l.set i new)[i]? = some new :=
  List.getElem?_set_self (List.getElem?_eq_some_iff.mp hold).1

theorem getElem?_set_kept {α : Type} {P : α → Prop} {l : List α} {i k : Nat}
    {old new found : α} (hold : l[i]? = some old) (hfound : l[k]? = some found)
    (hnew : P old → P new) (hP : P found) : ∃ q, (l.set i new)[k]? = some q ∧ P q := by
  by_cases hk : k = i
  · subst hk
    rw [hfound] at hold
    cases hold
    exact ⟨new, getElem?_set_of_some hfound, hnew hP⟩
  · exact ⟨found, by rw [List.getElem?_set_ne (Ne.symm hk), hfound], hP⟩

@[simp] theorem apply_runtimes (s : World) (i : Nat) (effect : Effect) :
    (s.apply i effect).runtimes = s.runtimes := by cases effect <;> rfl

@[simp] theorem apply_commands (s : World) (i : Nat) (effect : Effect) :
    (s.apply i effect).commands = s.commands := by cases effect <;> rfl

/-- The state after a step of one runtime. -/
def World.moved (s : World) (i : Nat) (r : Runtime) (phase : Phase) (effect : Effect) : World :=
  { s.apply i effect with
    runtimes := s.runtimes.set i { r with phase := phase, left := effect.left r.left } }

theorem Sound.moved (hsound : Sound identity s) {i : Nat} {r : Runtime} {phase : Phase}
    {effect : Effect} (hr : s.runtimes[i]? = some r)
    (hacts : Acts identity r s.holder.isNone phase effect) :
    Sound identity (s.moved i r phase effect) where
  lock := by
    intro k q hq hholds
    rcases getElem?_set_cases hr hq with ⟨rfl, rfl⟩ | ⟨hk, hq⟩
    · rcases hacts.holds hholds with rfl | ⟨hold, hne⟩
      · rfl
      · have hholder := hsound.lock k r hr hold
        cases effect with
        | release => exact absurd rfl hne
        | acquire => rfl
        | nothing | clear | refused | write document => exact hholder
    · have hholder := hsound.lock k q hq hholds
      cases effect with
      | nothing | clear | refused | write document => exact hholder
      | acquire =>
          have hfree := (hacts.acquire rfl).1
          rw [hholder] at hfree
          cases hfree
      | release =>
          have hown := hsound.lock i r hr (hacts.touch (.inl rfl))
          rw [hholder] at hown
          exact absurd (Option.some.inj hown) hk
  held := by
    have hothers : ∀ k, s.holder = some k → (k = i → phase.holds = true) →
        ∃ q, (s.runtimes.set i
            { r with phase := phase, left := effect.left r.left })[k]? = some q ∧
          q.phase.holds = true := by
      intro k hholder hself
      obtain ⟨q, hq, hholds⟩ := hsound.held k hholder
      by_cases hk : k = i
      · subst hk
        exact ⟨_, getElem?_set_of_some hr, hself rfl⟩
      · exact ⟨q, by rw [List.getElem?_set_ne (Ne.symm hk), hq], hholds⟩
    have hstays : effect ≠ .release → ∀ k, s.holder = some k → k = i → phase.holds = true := by
      rintro hne k hholder rfl
      obtain ⟨q, hq, hholds⟩ := hsound.held k hholder
      rw [hr] at hq
      cases hq
      exact (hacts.keeps hholds).resolve_left hne
    intro k hholder
    cases effect with
    | acquire =>
        obtain rfl : i = k := Option.some.inj hholder
        exact ⟨_, getElem?_set_of_some hr, (hacts.acquire rfl).2⟩
    | release => cases hholder
    | nothing | clear | refused | write document =>
        exact hothers k hholder (hstays (by simp) k hholder)
  pids := by
    intro k l q p hq hp hqliving hpliving hsame
    rcases getElem?_set_cases hr hq with ⟨hk, rfl⟩ | ⟨hk, hqold⟩
    · rcases getElem?_set_cases hr hp with ⟨hl, rfl⟩ | ⟨hl, hpold⟩
      · rw [hk, hl]
      · exact absurd (hsound.pids l i p r hpold hr hpliving (hacts.living hqliving)
          hsame.symm) hl
    · rcases getElem?_set_cases hr hp with ⟨hl, rfl⟩ | ⟨hl, hpold⟩
      · exact absurd (hsound.pids k i q r hqold hr hqliving (hacts.living hpliving) hsame) hk
      · exact hsound.pids k l q p hqold hpold hqliving hpliving hsame
  alive := by
    intro q hq
    rcases List.mem_or_eq_of_mem_set hq with hq | rfl
    · exact hsound.alive q hq
    · exact hsound.alive r (List.mem_of_getElem? hr)
  marked := by
    intro q hq hmarked
    rcases List.mem_or_eq_of_mem_set hq with hq | rfl
    · exact hsound.marked q hq hmarked
    · rcases hacts.marked hmarked with hold | hreadable
      · exact hsound.marked r (List.mem_of_getElem? hr) hold
      · exact hreadable
  authored := by
    have hsame : effect ≠ .clear → ∀ a, s.author = some a →
        ∃ q document, (s.runtimes.set i
            { r with phase := phase, left := effect.left r.left })[a]? = some q ∧
          (q.phase.leaves = true ∨ q.left = true) ∧ s.file = some (.document document) ∧
            BuiltBy identity q document := by
      intro hne a hauthor
      obtain ⟨q, document, hq, hleaves, hfile, hbuilt⟩ := hsound.authored a hauthor
      by_cases ha : a = i
      · subst ha
        rw [hr] at hq
        cases hq
        refine ⟨_, document, getElem?_set_of_some hr, ?_, hfile, hbuilt⟩
        rcases hleaves with hleaves | hleft
        · rcases (hacts.leaves hleaves).resolve_left hne with rfl | hleaves
          · exact .inr rfl
          · exact .inl hleaves
        · cases effect with
          | clear => exact absurd rfl hne
          | write document => exact .inl (hacts.write document rfl).1
          | nothing | acquire | release => exact .inr hleft
          | refused => exact .inr rfl
      · exact ⟨q, document, by rw [List.getElem?_set_ne (Ne.symm ha), hq], hleaves, hfile,
          hbuilt⟩
    intro a hauthor
    cases effect with
    | clear => cases hauthor
    | nothing | acquire | release | refused => exact hsame (by simp) a hauthor
    | write document =>
        obtain rfl : i = a := Option.some.inj hauthor
        obtain ⟨hleaves, hmarked, hchance⟩ := hacts.write document rfl
        exact ⟨_, document, getElem?_set_of_some hr, .inl hleaves, rfl,
          hsound.marked r (List.mem_of_getElem? hr) hmarked, hchance⟩
  looked := by
    intro c hc document a hlooked
    obtain ⟨q, hq, hbuilt⟩ := hsound.looked c (by simpa [World.moved] using hc) document a hlooked
    exact getElem?_set_kept (P := fun q => BuiltBy identity q document) hr hq
      (fun hold => hold) hbuilt
  condemned := by
    intro c hc a hcondemned
    obtain ⟨q, hq, hdead⟩ := hsound.condemned c (by simpa [World.moved] using hc) a hcondemned
    refine getElem?_set_kept (P := fun q => q.phase.living = false) hr hq (fun hold => ?_) hdead
    by_contra hliving
    rw [Bool.not_eq_false] at hliving
    rw [hacts.living hliving] at hold
    cases hold

theorem Standing.moved (hsound : Sound identity s) (hstanding : Standing s) {i : Nat}
    {r : Runtime} {phase : Phase} {effect : Effect} (hr : s.runtimes[i]? = some r)
    (hacts : Acts identity r s.holder.isNone phase effect) :
    Standing (s.moved i r phase effect) := by
  intro k q document hq hpublished
  rcases getElem?_set_cases hr hq with ⟨rfl, rfl⟩ | ⟨hk, hq⟩
  · rcases hacts.published document hpublished with rfl | ⟨hold, rfl⟩
    · exact ⟨rfl, rfl⟩
    · exact hstanding k r document hr hold
  · have hholder := hsound.lock k q hq (published_holds hpublished)
    have hquiet : ¬ (effect = .release ∨ effect = .clear ∨ ∃ document, effect = .write document) := by
      intro htouch
      have hown := hsound.lock i r hr (hacts.touch htouch)
      rw [hholder] at hown
      exact hk (Option.some.inj hown)
    have hold := hstanding k q document hq hpublished
    cases effect with
    | nothing | acquire | refused => exact hold
    | release => exact absurd (.inl rfl) hquiet
    | clear => exact absurd (.inr (.inl rfl)) hquiet
    | write other => exact absurd (.inr (.inr ⟨other, rfl⟩)) hquiet

theorem Sound.launch (hsound : Sound identity s) {r : Runtime}
    (halive : ProcessIdentity.alive r.self = some true) (hphase : r.phase = .starting)
    (hpids : ∀ q ∈ s.runtimes, q.phase.living = true → q.pid ≠ r.pid) :
    Sound identity { s with runtimes := s.runtimes ++ [r] } := by
  have hcases : ∀ {k : Nat} {q : Runtime}, (s.runtimes ++ [r])[k]? = some q →
      s.runtimes[k]? = some q ∨ k = s.runtimes.length ∧ q = r := by
    intro k q hq
    have hlist : (s.runtimes ++ (some r).toList)[k]? = some q := hq
    rcases Pool.getElem?_append_toList hlist with hold | ⟨hk, hnew⟩
    · exact .inl hold
    · exact .inr ⟨hk, (Option.some.inj hnew).symm⟩
  have hkept : ∀ {k : Nat} {q : Runtime}, s.runtimes[k]? = some q →
      (s.runtimes ++ [r])[k]? = some q := by
    intro k q hq
    rw [List.getElem?_append_left (List.getElem?_eq_some_iff.mp hq).1, hq]
  constructor
  · intro k q hq hholds
    rcases hcases hq with hq | ⟨-, rfl⟩
    · exact hsound.lock k q hq hholds
    · rw [hphase] at hholds
      cases hholds
  · intro k hholder
    obtain ⟨q, hq, hholds⟩ := hsound.held k hholder
    exact ⟨q, hkept hq, hholds⟩
  · intro k l q p hq hp hqliving hpliving hsame
    rcases hcases hq with hqold | ⟨hk, rfl⟩
    · rcases hcases hp with hpold | ⟨hl, rfl⟩
      · exact hsound.pids k l q p hqold hpold hqliving hpliving hsame
      · exact absurd hsame (hpids q (List.mem_of_getElem? hqold) hqliving)
    · rcases hcases hp with hpold | ⟨hl, rfl⟩
      · exact absurd hsame.symm (hpids p (List.mem_of_getElem? hpold) hpliving)
      · rw [hk, hl]
  · intro q hq
    rcases List.mem_append.mp hq with hq | hq
    · exact hsound.alive q hq
    · rw [List.mem_singleton.mp hq]
      exact halive
  · intro q hq hmarked
    rcases List.mem_append.mp hq with hq | hq
    · exact hsound.marked q hq hmarked
    · rw [List.mem_singleton.mp hq, hphase] at hmarked
      cases hmarked
  · intro a hauthor
    obtain ⟨q, document, hq, hrest⟩ := hsound.authored a hauthor
    exact ⟨q, document, hkept hq, hrest⟩
  · intro c hc document a hlooked
    obtain ⟨q, hq, hbuilt⟩ := hsound.looked c hc document a hlooked
    exact ⟨q, hkept hq, hbuilt⟩
  · intro c hc a hcondemned
    obtain ⟨q, hq, hdead⟩ := hsound.condemned c hc a hcondemned
    exact ⟨q, hkept hq, hdead⟩

/-- What the system answers about the descriptor of a runtime that runs. -/
theorem truthful_answer (hsound : Sound identity s) {i : Nat} {r : Runtime}
    {document : Dict String Json} (hr : s.runtimes[i]? = some r)
    (hliving : r.phase.living = true) (hbuilt : BuiltBy identity r document)
    (outside : Observation) : Truthful (s.answer outside document) r.self := by
  have hpid : DescriptorValidators.Shim.pidOf document = some r.pid := by
    obtain ⟨-, chance, rfl⟩ := hbuilt
    rfl
  rw [World.answer]
  split
  · next q hfind =>
      have hq := List.find?_some hfind
      rw [Bool.and_eq_true, beq_iff_eq, hpid, Option.some.injEq] at hq
      obtain ⟨j, hj⟩ := List.getElem?_of_mem (List.mem_of_find?_eq_some hfind)
      obtain rfl := hsound.pids i j r q hr hj hliving hq.1 hq.2
      rw [hr] at hj
      cases hj
      split
      · next htruthful => exact htruthful
      · exact ⟨rfl, rfl, hsound.alive r (List.mem_of_getElem? hr)⟩
  · next hfind =>
      have hno := List.find?_eq_none.mp hfind r (List.mem_of_getElem? hr)
      rw [hliving, hpid] at hno
      simp at hno

/-- What a step of a command can do. -/
structure Obeys (s : World) (outside : Observation) (unlinks : Bool) (c moved : Command)
    (t : World) : Prop where
  state : t = s ∨ unlinks = true ∧ (∃ a, c = .condemned a) ∧
    t = { s with file := none, author := none }
  looked : ∀ document a, moved = .looked document (some a) →
    s.author = some a ∧ shimReadDescriptor s.file = some (some document)
  condemned : ∀ a, moved = .condemned (some a) →
    s.author = some a ∧ shimReadDescriptor s.file = some none ∨
      ∃ document, c = .looked document (some a) ∧
        DescriptorValidators.Shim.isStale document (s.answer outside document) = some true

theorem obey_spec (s : World) (outside : Observation) (unlinks : Bool) (c : Command) :
    Obeys s outside unlinks c (s.obey outside unlinks c).1 (s.obey outside unlinks c).2 := by
  cases c with
  | invoked =>
      rw [World.obey]
      split <;> constructor <;> simp_all
  | described =>
      rw [World.obey]
      split <;> constructor <;> simp_all
  | looked document author =>
      rw [World.obey]
      split <;> constructor <;> simp_all
  | condemned author => cases unlinks <;> constructor <;> simp [World.obey]
  | done => constructor <;> simp [World.obey]

theorem Sound.cleared (hsound : Sound identity s) :
    Sound identity { s with file := none, author := none } :=
  { hsound with authored := fun a hauthor => (by cases hauthor) }

theorem Sound.commanded (hsound : Sound identity s) {j : Nat} {c : Command}
    (hc : s.commands[j]? = some c) (outside : Observation) (unlinks : Bool) :
    Sound identity { (s.obey outside unlinks c).2 with
      commands := s.commands.set j (s.obey outside unlinks c).1 } := by
  have hobeys := obey_spec s outside unlinks c
  have hlooked : ∀ d ∈ s.commands.set j (s.obey outside unlinks c).1, ∀ document a,
      d = .looked document (some a) →
        ∃ r, s.runtimes[a]? = some r ∧ BuiltBy identity r document := by
    intro d hd document a heq
    rcases List.mem_or_eq_of_mem_set hd with hd | rfl
    · exact hsound.looked d hd document a heq
    · obtain ⟨hauthor, hread⟩ := hobeys.looked document a heq
      obtain ⟨r, other, hr, -, hfile, hbuilt⟩ := hsound.authored a hauthor
      rw [hfile, (built_read hbuilt).2] at hread
      cases hread
      exact ⟨r, hr, hbuilt⟩
  have hcondemned : ∀ d ∈ s.commands.set j (s.obey outside unlinks c).1, ∀ a,
      d = .condemned (some a) →
        ∃ r, s.runtimes[a]? = some r ∧ r.phase.living = false := by
    intro d hd a heq
    rcases List.mem_or_eq_of_mem_set hd with hd | rfl
    · exact hsound.condemned d hd a heq
    · rcases hobeys.condemned a heq with ⟨hauthor, hread⟩ | ⟨document, rfl, hstale⟩
      · obtain ⟨r, other, hr, -, hfile, hbuilt⟩ := hsound.authored a hauthor
        rw [hfile, (built_read hbuilt).2] at hread
        cases hread
      · obtain ⟨r, hr, hbuilt⟩ :=
          hsound.looked _ (List.mem_of_getElem? hc) document a rfl
        refine ⟨r, hr, ?_⟩
        by_contra hliving
        rw [Bool.not_eq_false] at hliving
        have hmatch := built_matches (fun _ => "") hbuilt
          (truthful_answer hsound hr hliving hbuilt outside)
        rw [hmatch.2] at hstale
        cases hstale
  rcases hobeys.state with hstate | ⟨-, -, hstate⟩
  · rw [hstate]
    exact { hsound with looked := hlooked, condemned := hcondemned }
  · rw [hstate]
    exact { hsound.cleared with looked := hlooked, condemned := hcondemned }

theorem Sound.invoked (hsound : Sound identity s) :
    Sound identity { s with commands := s.commands ++ [.invoked] } where
  __ := hsound
  looked := by
    intro c hc document a hlooked
    rcases List.mem_append.mp hc with hc | hc
    · exact hsound.looked c hc document a hlooked
    · rw [List.mem_singleton.mp hc] at hlooked
      cases hlooked
  condemned := by
    intro c hc a hcondemned
    rcases List.mem_append.mp hc with hc | hc
    · exact hsound.condemned c hc a hcondemned
    · rw [List.mem_singleton.mp hc] at hcondemned
      cases hcondemned

theorem step_advance_eq {i : Nat} {r : Runtime} (hr : s.runtimes[i]? = some r)
    (chance : Chance) :
    step pyStr identity s (.advance i chance) =
      s.moved i r
        (act pyStr identity r s.holder.isNone s.file (s.answer chance.outside) chance).1
        (act pyStr identity r s.holder.isNone s.file (s.answer chance.outside) chance).2 := by
  simp only [step, hr, World.moved]

theorem step_crash_eq (hsound : Sound identity s) {i : Nat} {r : Runtime}
    (hr : s.runtimes[i]? = some r) (hliving : r.phase.living = true) :
    step pyStr identity s (.crash i) =
      s.moved i r .crashed (if r.phase.holds then .release else .nothing) := by
  simp only [step, hr, hliving, ↓reduceIte, World.moved]
  cases hholds : r.phase.holds with
  | true =>
      rw [if_pos (hsound.lock i r hr hholds)]
      rfl
  | false =>
      rw [if_neg]
      · rfl
      · intro hholder
        obtain ⟨q, hq, hqholds⟩ := hsound.held i hholder
        rw [hr] at hq
        cases hq
        rw [hholds] at hqholds
        cases hqholds

theorem sound_step (hsound : Sound identity s) (label : Label) :
    Sound identity (step pyStr identity s label) := by
  cases label with
  | launch pid self token =>
      rw [step]
      split
      · next hnew => exact hsound.launch hnew.1 rfl hnew.2
      · exact hsound
  | advance i chance =>
      cases hr : s.runtimes[i]? with
      | none => simpa only [step, hr] using hsound
      | some r =>
          rw [step_advance_eq hr]
          exact hsound.moved hr (act_spec r _ _ _ chance)
  | crash i =>
      cases hr : s.runtimes[i]? with
      | none => simpa only [step, hr] using hsound
      | some r =>
          by_cases hliving : r.phase.living = true
          · rw [step_crash_eq hsound hr hliving]
            exact hsound.moved hr (crash_spec r _)
          · simpa only [step, hr, hliving, Bool.false_eq_true, ↓reduceIte] using hsound
  | invoke => exact hsound.invoked
  | command j outside unlinks =>
      cases hc : s.commands[j]? with
      | none => simpa only [step, hc] using hsound
      | some c =>
          simp only [step, hc]
          exact hsound.commanded hc outside unlinks

theorem standing_step (hsound : Sound identity s) (hstanding : Standing s) (label : Label)
    (hchecked : Checked s label) : Standing (step pyStr identity s label) := by
  cases label with
  | launch pid self token =>
      rw [step]
      split
      · intro k q document hq hpublished
        have hlist : (s.runtimes ++ (some (Runtime.mk pid self token .starting false)).toList)[k]? =
            some q := hq
        rcases Pool.getElem?_append_toList hlist with hold | ⟨-, hnew⟩
        · exact hstanding k q document hold hpublished
        · cases hnew
          cases hpublished
      · exact hstanding
  | advance i chance =>
      cases hr : s.runtimes[i]? with
      | none => simpa only [step, hr] using hstanding
      | some r =>
          rw [step_advance_eq hr]
          exact hstanding.moved hsound hr (act_spec r _ _ _ chance)
  | crash i =>
      cases hr : s.runtimes[i]? with
      | none => simpa only [step, hr] using hstanding
      | some r =>
          by_cases hliving : r.phase.living = true
          · rw [step_crash_eq hsound hr hliving]
            exact hstanding.moved hsound hr (crash_spec r _)
          · simpa only [step, hr, hliving, Bool.false_eq_true, ↓reduceIte] using hstanding
  | invoke => exact hstanding
  | command j outside unlinks =>
      cases hc : s.commands[j]? with
      | none => simpa only [step, hc] using hstanding
      | some c =>
          simp only [step, hc]
          rcases (obey_spec s outside unlinks c).state with hstate | ⟨rfl, ⟨author, rfl⟩, hstate⟩
          · rw [hstate]
            exact hstanding
          · rw [hstate]
            intro i r document hr hpublished
            have hauthor := (hstanding i r document hr hpublished).2
            have hsame : author = some i := hchecked author hc i hauthor
              ⟨r, hr, by rw [hpublished]; rfl⟩
            obtain ⟨q, hq, hdead⟩ :=
              hsound.condemned _ (List.mem_of_getElem? hc) i (by rw [hsame])
            have hr : s.runtimes[i]? = some r := hr
            rw [hr] at hq
            cases hq
            rw [living_of_published hpublished] at hdead
            cases hdead

/-- A command that removes the published descriptor of a runtime breaks it, so that it
can only have been the one that was checked. -/
theorem checked_of_standing (label : Label)
    (hafter : Standing (step pyStr identity s label)) : Checked s label := by
  cases label with
  | command j outside unlinks =>
      cases unlinks with
      | false => trivial
      | true =>
          rintro a hc i hauthor ⟨r, hr, hpublished⟩
          obtain ⟨document, hdocument⟩ := Option.isSome_iff_exists.mp hpublished
          have hstep : step pyStr identity s (.command j outside true) =
              { s with file := none, author := none, commands := s.commands.set j .done } := by
            simp only [step, hc, World.obey, ↓reduceIte]
          rw [hstep] at hafter
          cases (hafter i r document hr hdocument).1
  | launch | advance | crash | invoke => trivial

theorem sound_initial (file : Option Contents) : Sound identity (.initial file) := by
  constructor <;> simp [World.initial]

theorem sound_run (pyStr : Option Json → String) (identity : String) (file : Option Contents) (labels : List Label) :
    Sound identity (run pyStr identity (.initial file) labels) := by
  refine List.foldlRecOn labels _ (motive := Sound identity) (sound_initial file) ?_
  exact fun s hsound label _ => sound_step hsound label

theorem apply_no_author {i : Nat} {effect : Effect}
    (hauthor : (s.apply i effect).author = none) :
    s.author = none ∧ (s.apply i effect).file = s.file ∨ (s.apply i effect).file = none := by
  cases effect with
  | nothing | acquire | release | refused => exact .inl ⟨hauthor, rfl⟩
  | clear => exact .inr rfl
  | write document => cases hauthor

theorem apply_file_ne {i : Nat} {effect : Effect} (hfile : (s.apply i effect).file ≠ s.file) :
    effect = .clear ∨ ∃ document, effect = .write document := by
  cases effect with
  | nothing | acquire | release | refused => exact absurd rfl hfile
  | clear => exact .inl rfl
  | write document => exact .inr ⟨document, rfl⟩

/-- What is in the descriptor file without a runtime that wrote it was there at first. -/
theorem file_of_no_author (file : Option Contents) (labels : List Label) :
    (run pyStr identity (.initial file) labels).author = none →
      (run pyStr identity (.initial file) labels).file = none ∨
        (run pyStr identity (.initial file) labels).file = file := by
  refine List.foldlRecOn labels _
    (motive := fun s : World => s.author = none → s.file = none ∨ s.file = file)
    (fun _ => .inr rfl) ?_
  intro s hs label _
  cases label with
  | launch pid self token =>
      rw [step]
      split
      · exact hs
      · exact hs
  | advance i chance =>
      cases hr : s.runtimes[i]? with
      | none => simpa only [step, hr] using hs
      | some r =>
          rw [step_advance_eq hr]
          intro hauthor
          rcases apply_no_author hauthor with ⟨hold, hfile⟩ | hfile
          · exact (hs hold).imp hfile.trans hfile.trans
          · exact .inl hfile
  | crash i =>
      cases hr : s.runtimes[i]? with
      | none => simpa only [step, hr] using hs
      | some r =>
          simp only [step, hr]
          split
          · exact hs
          · exact hs
  | invoke => exact hs
  | command j outside unlinks =>
      cases hc : s.commands[j]? with
      | none => simpa only [step, hc] using hs
      | some c =>
          simp only [step, hc]
          rcases (obey_spec s outside unlinks c).state with hstate | ⟨-, -, hstate⟩
          · rw [hstate]
            exact hs
          · rw [hstate]
            exact fun _ => .inl rfl

end Invariants

section Guarantees

variable (pyStr : Option Json → String) (identity : String) (file : Option Contents)
  (labels : List Label)

/-- In every state that is reached, the lock is held just by one runtime that is between
having it and giving it back, and no step of another one changes the descriptor. -/
theorem one_runtime :
    (∀ i, (run pyStr identity (.initial file) labels).holder = some i ↔
      ∃ r, (run pyStr identity (.initial file) labels).runtimes[i]? = some r ∧
        r.phase.holds = true) ∧
    ∀ i chance,
      (step pyStr identity (run pyStr identity (.initial file) labels)
        (.advance i chance)).file ≠ (run pyStr identity (.initial file) labels).file →
      (run pyStr identity (.initial file) labels).holder = some i := by
  have hsound := sound_run pyStr identity file labels
  refine ⟨fun i => ⟨hsound.held i, fun ⟨r, hr, hholds⟩ => hsound.lock i r hr hholds⟩, ?_⟩
  intro i chance hfile
  cases hr : (run pyStr identity (.initial file) labels).runtimes[i]? with
  | none => simp [step, hr] at hfile
  | some r =>
      rw [step_advance_eq hr] at hfile
      exact hsound.lock i r hr ((act_spec r _ _ _ chance).touch (.inr (apply_file_ne hfile)))

/-- The descriptor is the one that was there at first, or it was written by a runtime
that has it still, that has served, that crashed or that was refused its removal: any
other start that fails leaves none. -/
theorem descriptor_origin :
    (run pyStr identity (.initial file) labels).file = none ∨
    (run pyStr identity (.initial file) labels).file = file ∧
      (run pyStr identity (.initial file) labels).author = none ∨
    ∃ i r document, (run pyStr identity (.initial file) labels).author = some i ∧
      (run pyStr identity (.initial file) labels).runtimes[i]? = some r ∧
      (run pyStr identity (.initial file) labels).file = some (.document document) ∧
      BuiltBy identity r document ∧ (r.phase.leaves = true ∨ r.left = true) := by
  cases hauthor : (run pyStr identity (.initial file) labels).author with
  | none =>
      rcases file_of_no_author file labels hauthor with hfile | hfile
      · exact .inl hfile
      · exact .inr (.inl ⟨hfile, rfl⟩)
  | some a =>
      obtain ⟨r, document, hr, hleaves, hfile, hbuilt⟩ :=
        (sound_run pyStr identity file labels).authored a hauthor
      exact .inr (.inr ⟨a, r, document, rfl, hr, hfile, hbuilt, hleaves⟩)

/-- As long as the runtime that wrote the descriptor runs, both sides can read it, and
neither finds it stale. -/
theorem descriptor_recognised (outside : Observation) :
    ∀ i r, (run pyStr identity (.initial file) labels).author = some i →
      (run pyStr identity (.initial file) labels).runtimes[i]? = some r →
      r.phase.living = true →
      ∃ document,
        readDescriptor (run pyStr identity (.initial file) labels).file =
          some (some document) ∧
        shimReadDescriptor (run pyStr identity (.initial file) labels).file =
          some (some document) ∧
        ProcessIdentity.Runtime.processMatchesIdentity pyStr
          ((run pyStr identity (.initial file) labels).answer outside document)
          (markerOf document) = some true ∧
        DescriptorValidators.Shim.isStale document
          ((run pyStr identity (.initial file) labels).answer outside document) =
            some false := by
  intro i r hauthor hr hliving
  have hsound := sound_run pyStr identity file labels
  obtain ⟨q, document, hq, -, hfile, hbuilt⟩ := hsound.authored i hauthor
  rw [hr] at hq
  cases hq
  have hread := built_read hbuilt
  have hmatch := built_matches pyStr hbuilt (truthful_answer hsound hr hliving hbuilt outside)
  rw [hfile]
  exact ⟨document, hread.1, hread.2, hmatch.1, hmatch.2⟩

/-- The published descriptor of every runtime stands in every state of a run just when
no command removes one that it did not check. -/
theorem standing_iff_checked :
    Always (step pyStr identity) Standing (.initial file) labels ↔
      EachStep (step pyStr identity) Checked (.initial file) labels := by
  refine always_iff_eachStep (I := fun s => Sound identity s ∧ Standing s) ?_
    (fun _ h => h.2) (fun _ label _ hafter => checked_of_standing label hafter) ?_
  · exact fun s label h hchecked =>
      ⟨sound_step h.1 label, standing_step h.1 h.2 label hchecked⟩
  · exact ⟨sound_initial file, fun i r document hr => by simp [World.initial] at hr⟩

end Guarantees

namespace StartWitness

def chance : Chance :=
  ⟨ProcessIdentity.IdentityWitness.running, "0a", "2026-01-01T00:00:00.000000Z", 4040,
    false, false, true, true, true⟩

/-- A runtime starts up to the descriptor that it writes. -/
def started : List Label :=
  [.launch 7 ProcessIdentity.IdentityWitness.running "t", .advance 0 chance,
    .advance 0 chance, .advance 0 chance, .advance 0 chance]

def writer : Runtime := ⟨7, ProcessIdentity.IdentityWitness.running, "t", .starting, false⟩

theorem started_recognised : ∃ document,
    readDescriptor (run (fun _ => "") "r" (.initial none) started).file =
      some (some document) ∧
    shimReadDescriptor (run (fun _ => "") "r" (.initial none) started).file =
      some (some document) ∧
    ProcessIdentity.Runtime.processMatchesIdentity (fun _ => "")
      ((run (fun _ => "") "r" (.initial none) started).answer chance.outside document)
      (markerOf document) = some true ∧
    DescriptorValidators.Shim.isStale document
      ((run (fun _ => "") "r" (.initial none) started).answer chance.outside document) =
        some false :=
  descriptor_recognised (fun _ => "") "r" none started chance.outside 0
    { writer with phase := .written 0 (descriptorWithPort "r" writer chance) } rfl rfl rfl

end StartWitness

end RuntimeStart

end HermesPipeline
