/-
The bounds of the rate limiter over whole runs.  Windows open at request times, so an
interval as long as a window meets at most two of them.
-/
import HermesPipeline.LoopbackProtocol

namespace HermesPipeline

namespace RateBound

/-- A request that was decided, and the window it was counted in. -/
structure Decision where
  now : Int
  window : Int
  allowed : Bool
deriving Repr, DecidableEq

/-- The decisions about requests at these times. -/
def serve : FixedWindowRateLimiter → List Int → List Decision
  | _, [] => []
  | limiter, now :: rest =>
      let answer := limiter.allow now
      ⟨now, (limiter.opened now).windowStart.getD now, answer.1⟩ :: serve answer.2 rest

/-- `FixedWindowRateLimiter(w, m)`. -/
def fresh (w : Int) (m : Nat) : FixedWindowRateLimiter :=
  { windowSeconds := w, maxRequests := m }

/-- The requests that were allowed in a window. -/
def allowedIn (start : Int) (d : Decision) : Bool := d.allowed && d.window = start

/-- The requests that were allowed between two times. -/
def allowedBetween (first last : Int) (d : Decision) : Bool :=
  d.allowed && first ≤ d.now && d.now ≤ last

/-- Every denied request comes after as many allowed ones of its window. -/
def Paid (m : Nat) (decisions : List Decision) : Prop :=
  ∀ front d back, decisions = front ++ d :: back → d.allowed = false →
    m ≤ front.countP (allowedIn d.window)

/-- What holds of the decisions so far and the limiter after them. -/
structure Kept (w : Int) (m : Nat) (decisions : List Decision)
    (limiter : FixedWindowRateLimiter) : Prop where
  limits : limiter.windowSeconds = w ∧ limiter.maxRequests = m
  within : ∀ d ∈ decisions, d.window ≤ d.now ∧ d.now < d.window + w
  apart : ∀ d ∈ decisions, ∀ e ∈ decisions,
    d.window = e.window ∨ d.window + w ≤ e.window ∨ e.window + w ≤ d.window
  opened : ∀ d ∈ decisions, ∃ start, limiter.windowStart = some start ∧
    (d.window = start ∨ d.window + w ≤ start)
  counted : ∀ start, limiter.windowStart = some start →
    (decisions.countP (allowedIn start) : Int) = min limiter.count m
  bounded : ∀ start, decisions.countP (allowedIn start) ≤ m
  paid : Paid m decisions

section Steps

variable {w now : Int} {m : Nat} {decisions : List Decision}
variable {limiter : FixedWindowRateLimiter}

theorem kept_fresh (w : Int) (m : Nat) : Kept w m [] (fresh w m) where
  limits := ⟨rfl, rfl⟩
  within := by simp
  apart := by simp
  opened := by simp
  counted := by simp [fresh]
  bounded := by simp
  paid := by
    intro front d back hsplit
    simp at hsplit

/-- A window that opens now has no decisions yet. -/
theorem Kept.reopen (hkept : Kept w m decisions limiter) (hw : 0 < w)
    (hlate : ∀ start, limiter.windowStart = some start → start + w ≤ now) :
    Kept w m decisions { limiter with windowStart := some now, count := 0 } := by
  have hbefore : ∀ d ∈ decisions, d.window + w ≤ now := by
    intro d hd
    obtain ⟨start, hstart, hwindow⟩ := hkept.opened d hd
    have hnow := hlate start hstart
    omega
  refine ⟨hkept.limits, hkept.within, hkept.apart, ?_, ?_, hkept.bounded, hkept.paid⟩
  · exact fun d hd => ⟨now, rfl, .inr (hbefore d hd)⟩
  · intro start hstart
    obtain rfl := Option.some.inj hstart
    have hnone : decisions.countP (allowedIn now) = 0 := by
      rw [List.countP_eq_zero]
      intro d hd
      have hwindow : d.window ≠ now := by
        have hd := hbefore d hd
        omega
      simp [allowedIn, hwindow]
    rw [hnone]
    simp

/-- Opening keeps everything, and the request is in the window. -/
theorem Kept.open (hkept : Kept w m decisions limiter) (hw : 0 < w)
    (hpast : ∀ start, limiter.windowStart = some start → start ≤ now) :
    Kept w m decisions (limiter.opened now) ∧
      ∃ start, (limiter.opened now).windowStart = some start ∧ start ≤ now ∧
        now < start + w := by
  rw [FixedWindowRateLimiter.opened]
  cases hstart : limiter.windowStart with
  | none =>
      refine ⟨hkept.reopen hw ?_, now, rfl, Int.le_refl now, by omega⟩
      intro start h
      rw [hstart] at h
      cases h
  | some start =>
      have hlimit := hkept.limits.1
      by_cases hlate : now - start ≥ limiter.windowSeconds
      · simp only [hlate, if_true]
        refine ⟨hkept.reopen hw ?_, now, rfl, Int.le_refl now, by omega⟩
        intro start' h
        rw [hstart, Option.some.injEq] at h
        omega
      · simp only [hlate, if_false]
        exact ⟨hkept, start, hstart, hpast start hstart, by omega⟩

/-- Counting a request keeps everything. -/
theorem Kept.count (hkept : Kept w m decisions limiter) {start : Int}
    (hstart : limiter.windowStart = some start) (hnow : start ≤ now ∧ now < start + w) :
    Kept w m (decisions ++ [⟨now, start, decide (limiter.count + 1 ≤ limiter.maxRequests)⟩])
      { limiter with count := limiter.count + 1 } := by
  obtain ⟨hseconds, hmax⟩ := hkept.limits
  have hcounted := hkept.counted start hstart
  rw [hmax]
  have hlast : ∀ other, [(⟨now, start, decide (limiter.count + 1 ≤ (m : Int))⟩ :
      Decision)].countP (allowedIn other) =
        if limiter.count + 1 ≤ (m : Int) ∧ start = other then 1 else 0 := by
    intro other
    by_cases hallowed : limiter.count + 1 ≤ (m : Int) ∧ start = other
    · simp [allowedIn, hallowed]
    · rw [if_neg hallowed]
      simpa [allowedIn] using hallowed
  have hnew : ((decisions.countP (allowedIn start) : Int) +
      (if limiter.count + 1 ≤ (m : Int) ∧ start = start then (1 : Nat) else 0 : Nat)) =
        min (limiter.count + 1) m := by
    split <;> omega
  refine ⟨⟨hseconds, rfl⟩, ?_, ?_, ?_, ?_, ?_, ?_⟩
  · simp only [List.mem_append, List.mem_singleton]
    rintro d (hd | rfl)
    · exact hkept.within d hd
    · exact hnow
  · have hcurrent : ∀ d ∈ decisions, d.window = start ∨ d.window + w ≤ start := by
      intro d hd
      obtain ⟨start', hstart', hwindow⟩ := hkept.opened d hd
      rw [hstart, Option.some.injEq] at hstart'
      rwa [hstart']
    simp only [List.mem_append, List.mem_singleton]
    rintro d (hd | rfl) e (he | rfl)
    · exact hkept.apart d hd e he
    · exact (hcurrent d hd).imp id .inl
    · exact (hcurrent e he).imp Eq.symm .inr
    · exact .inl rfl
  · simp only [List.mem_append, List.mem_singleton]
    rintro d (hd | rfl)
    · exact hkept.opened d hd
    · exact ⟨start, hstart, .inl rfl⟩
  · intro start' hstart'
    rw [show limiter.windowStart = some start' from hstart', Option.some.injEq] at hstart
    subst hstart
    rw [List.countP_append, hlast, Int.natCast_add]
    exact hnew
  · intro other
    rw [List.countP_append, hlast]
    by_cases hother : start = other
    · subst hother
      have hle : min (limiter.count + 1) (m : Int) ≤ m := Int.min_le_right _ _
      omega
    · rw [if_neg fun h => hother h.2]
      exact hkept.bounded other
  · intro front d back hsplit hdenied
    rcases List.eq_nil_or_concat back with rfl | ⟨back, last, rfl⟩
    · obtain ⟨rfl, hd⟩ := List.append_inj' hsplit rfl
      obtain rfl := List.cons.inj hd |>.1
      have hfull : ¬ limiter.count + 1 ≤ (m : Int) := of_decide_eq_false hdenied
      change m ≤ decisions.countP (allowedIn start)
      omega
    · rw [List.concat_eq_append, ← List.cons_append, ← List.append_assoc] at hsplit
      obtain ⟨hfront, -⟩ := List.append_inj' hsplit rfl
      exact hkept.paid front d back hfront hdenied

/-- Every decision keeps everything. -/
theorem Kept.allow (hkept : Kept w m decisions limiter) (hw : 0 < w)
    (hpast : ∀ start, limiter.windowStart = some start → start ≤ now) :
    Kept w m (decisions ++ [⟨now, (limiter.opened now).windowStart.getD now,
        (limiter.allow now).1⟩]) (limiter.allow now).2 ∧
      ∃ start, (limiter.allow now).2.windowStart = some start ∧ start ≤ now := by
  obtain ⟨hopened, start, hstart, hle, hlt⟩ := hkept.open hw hpast
  have hcounted := hopened.count hstart ⟨hle, hlt⟩
  rw [hstart]
  exact ⟨hcounted, start, hstart, hle⟩

/-- So does every run. -/
theorem Kept.serve {times : List Int} (hkept : Kept w m decisions limiter) (hw : 0 < w)
    (hordered : times.Pairwise (· ≤ ·))
    (hpast : ∀ now ∈ times, ∀ start, limiter.windowStart = some start → start ≤ now) :
    ∃ last, Kept w m (decisions ++ serve limiter times) last := by
  induction times generalizing decisions limiter with
  | nil => exact ⟨limiter, by simpa [RateBound.serve] using hkept⟩
  | cons now rest ih =>
      rw [List.pairwise_cons] at hordered
      obtain ⟨hnext, start, hstart, hle⟩ := hkept.allow hw (hpast now List.mem_cons_self)
      obtain ⟨last, hlast⟩ := ih hnext hordered.2 fun later hlater start' hstart' => by
        rw [hstart, Option.some.injEq] at hstart'
        have hlater := hordered.1 later hlater
        omega
      refine ⟨last, ?_⟩
      rw [RateBound.serve]
      simpa [List.append_assoc] using hlast

end Steps

section Bounds

variable {w : Int} {m : Nat} {decisions : List Decision} {limiter : FixedWindowRateLimiter}

theorem countP_le_add {p q r : Decision → Bool} (decisions : List Decision)
    (himp : ∀ d ∈ decisions, p d = true → q d = true ∨ r d = true) :
    decisions.countP p ≤ decisions.countP q + decisions.countP r := by
  induction decisions with
  | nil => simp
  | cons d rest ih =>
      have hrest := ih fun e he => himp e (List.mem_cons_of_mem d he)
      have hd := himp d List.mem_cons_self
      rw [List.countP_cons, List.countP_cons, List.countP_cons]
      by_cases hp : p d = true
      · rcases hd hp with hq | hr
        · simp only [hp, hq, if_true]
          split <;> omega
        · simp only [hp, hr, if_true]
          split <;> omega
      · simp only [hp, Bool.false_eq_true, if_false]
        omega

/-- The decisions between two times are in two windows, where the times are no
further apart than a window is long. -/
theorem Kept.two_windows (hkept : Kept w m decisions limiter) (first : Int) :
    ∃ left right, ∀ d ∈ decisions, first ≤ d.now → d.now ≤ first + w →
      d.window = left ∨ d.window = right := by
  by_cases hany : ∃ d ∈ decisions, first ≤ d.now ∧ d.now ≤ first + w
  · obtain ⟨d, hd, hdfirst, hdlast⟩ := hany
    by_cases hother : ∃ e ∈ decisions, (first ≤ e.now ∧ e.now ≤ first + w) ∧
        e.window ≠ d.window
    · obtain ⟨e, he, ⟨hefirst, helast⟩, hne⟩ := hother
      refine ⟨d.window, e.window, fun f hf hffirst hflast => ?_⟩
      -- of three windows the last one opens a whole window after the first one ends
      have hd' := hkept.within d hd
      have he' := hkept.within e he
      have hf' := hkept.within f hf
      have hde := hkept.apart d hd e he
      have hdf := hkept.apart d hd f hf
      have hef := hkept.apart e he f hf
      omega
    · refine ⟨d.window, d.window, fun e he hefirst helast => .inl ?_⟩
      by_contra hne
      exact hother ⟨e, he, ⟨hefirst, helast⟩, hne⟩
  · exact ⟨0, 0, fun d hd hfirst hlast => absurd ⟨d, hd, hfirst, hlast⟩ hany⟩

theorem Kept.between (hkept : Kept w m decisions limiter) (first : Int) :
    decisions.countP (allowedBetween first (first + w)) ≤ 2 * m := by
  obtain ⟨left, right, htwo⟩ := hkept.two_windows first
  have hsum := countP_le_add (p := allowedBetween first (first + w)) (q := allowedIn left)
    (r := allowedIn right) decisions fun d hd hbetween => by
      simp only [allowedBetween, Bool.and_eq_true, decide_eq_true_eq] at hbetween
      obtain ⟨⟨hallowed, hfirst⟩, hlast⟩ := hbetween
      exact (htwo d hd hfirst hlast).imp (fun h => by simp [allowedIn, hallowed, h])
        fun h => by simp [allowedIn, hallowed, h]
  have hleft := hkept.bounded left
  have hright := hkept.bounded right
  omega

end Bounds

/-- A window allows at most `m` requests, an interval of its length at most twice as
many (both ends counted), and a request is denied only after `m` allowed ones less
than a window before it. -/
theorem rate_limit_bound (w : Int) (m : Nat) (times : List Int) (hw : 0 < w)
    (hordered : times.Pairwise (· ≤ ·)) :
    (∀ start, (serve (fresh w m) times).countP (allowedIn start) ≤ m) ∧
    (∀ first, (serve (fresh w m) times).countP (allowedBetween first (first + w)) ≤ 2 * m) ∧
    ∀ front d back, serve (fresh w m) times = front ++ d :: back → d.allowed = false →
      m ≤ front.countP fun e => e.allowed && d.now - e.now < w := by
  obtain ⟨last, hlast⟩ := (kept_fresh w m).serve hw hordered (by simp [fresh])
  rw [List.nil_append] at hlast
  refine ⟨hlast.bounded, hlast.between, fun front d back hsplit hdenied => ?_⟩
  refine (hlast.paid front d back hsplit hdenied).trans ?_
  have hwithin := hlast.within
  rw [hsplit] at hwithin
  have hd := hwithin d (List.mem_append_right _ List.mem_cons_self)
  refine List.countP_mono_left fun e he hallowed => ?_
  simp only [allowedIn, Bool.and_eq_true, decide_eq_true_eq] at hallowed
  have he' := hwithin e (List.mem_append_left _ he)
  simp only [Bool.and_eq_true, decide_eq_true_eq]
  exact ⟨hallowed.1, by omega⟩

namespace RateBoundWitness

/-- Four requests, one of them denied, in two windows. -/
theorem rate_limit_sample :
    (serve (fresh 10 2) [0, 1, 9, 10]).map Decision.allowed = [true, true, false, true] ∧
      ∀ first, (serve (fresh 10 2) [0, 1, 9, 10]).countP
        (allowedBetween first (first + 10)) ≤ 2 * 2 :=
  ⟨by decide, (rate_limit_bound 10 2 [0, 1, 9, 10] (by decide) (by decide)).2.1⟩

end RateBoundWitness

end RateBound

end HermesPipeline
