import Pyroscope.Signal.Timers

/-!
# No timer is armed without its handler

Whoever got SIGPROF into `HANDLED_SIGNALS` owns the handler, the timer and `ACTIVE`
until it takes it out again: a thread that starts a session, then the session, then
the thread that drops it. The invariant names the stage this owner is at. The hooks
work beside it under the mutex of the `SharedTimer`, which the drop needs as well.
-/

namespace Pyroscope.Signal.Timers
open Pyroscope.Lib

namespace Pc

def holds : Pc → Option Mutex
  | .installLocked _ | .installPush _ | .handlerDropLocked | .handlerForget => some .handledSignals
  | .dropLocked k | .dropBackend k _ _ | .dropActive k | .dropUnlock k | .createdLocked k _
  | .timerCreated k _ _ | .timerArmed k _ _ | .timerFailed k _ | .removedLocked k _
  | .removedDelete k _ | .hookUnlock k => some (.slot k)
  | _ => none

/-- The session in whose timer a hook is at work. -/
def inside : Pc → Option ℕ
  | .timerCreated k _ _ | .timerArmed k _ _ | .timerFailed k _ | .removedDelete k _ => some k
  | _ => none

/-- The kernel timer that a hook has armed and not yet stored, or removed and not yet deleted. -/
def hand : Pc → Option ℕ
  | .timerArmed _ _ id | .removedDelete _ id => some id
  | _ => none

/-- The thread for which a hook is making a timer. -/
def adds : Pc → Option (ℕ × ℕ)
  | .timerCreated k tid _ | .timerArmed k tid _ => some (k, tid)
  | _ => none

theorem holds_of_inside {pc : Pc} {k : ℕ} (h : pc.inside = some k) : pc.holds = some (.slot k) := by
  cases pc <;> cases h <;> rfl

theorem inside_of_adds {pc : Pc} {k tid : ℕ} (h : pc.adds = some (k, tid)) : pc.inside = some k := by
  cases pc <;> cases h <;> rfl

end Pc

variable {ι : Type} [DecidableEq ι]

/-! ### The mutexes -/

theorem step_locks {t : ι} {s s' : State ι} (h : Mutexes s.locks s.pcs Pc.holds) (hs : Step t s s') :
    Mutexes s'.locks s'.pcs Pc.holds := by
  cases hs
  case start hpc mode => exact h.keep hpc rfl
  case startFails hpc => exact h.keep hpc rfl
  case installLock hpc free => exact h.acquire free hpc rfl rfl
  case installRefused hpc listed => exact h.release hpc rfl rfl
  case sigactionFails hpc unlisted => exact h.release hpc rfl rfl
  case sigaction hpc unlisted => exact h.keep hpc rfl
  case installPush hpc => exact h.release hpc rfl rfl
  case modeRefused hpc => exact h.keep hpc rfl
  case activeRefused hpc taken => exact h.keep hpc rfl
  case acquire hpc free => exact h.keep hpc rfl
  case setitimer hpc => exact h.keep hpc rfl
  case setitimerFails hpc => exact h.keep hpc rfl
  case noThreads hpc => exact h.keep hpc rfl
  case releaseActive hpc => exact h.keep hpc rfl
  case sessionStarts hpc => exact h.keep hpc rfl
  case dropSession hpc live => exact h.keep hpc rfl
  case dropLock hpc free => exact h.acquire free hpc rfl rfl
  case dropNone hpc none' => exact h.keep hpc rfl
  case dropTimer hpc some' all => exact h.keep hpc rfl
  case deleteThread hpc => exact h.keep hpc rfl
  case disarm hpc => exact h.keep hpc rfl
  case dropActive hpc => exact h.keep hpc rfl
  case dropUnlock hpc => exact h.release hpc rfl rfl
  case handlerDropLock hpc free => exact h.acquire free hpc rfl rfl
  case ignore hpc => exact h.keep hpc rfl
  case queryFails hpc => exact h.keep hpc rfl
  case forget hpc => exact h.release hpc rfl rfl
  case threadCreated hpc shared tid => exact h.keep hpc rfl
  case createdLock hpc free => exact h.acquire free hpc rfl rfl
  case createdNothing hpc nothing => exact h.keep hpc rfl
  case timerCreateFails hpc some' vacant => exact h.keep hpc rfl
  case timerCreate hpc some' vacant => exact h.keep hpc rfl
  case settime hpc => exact h.keep hpc rfl
  case settimeFails hpc => exact h.keep hpc rfl
  case deleteFailed hpc => exact h.keep hpc rfl
  case insertTimer hpc some' => exact h.keep hpc rfl
  case threadRemoved hpc shared tid => exact h.keep hpc rfl
  case removedLock hpc free => exact h.acquire free hpc rfl rfl
  case removedNothing hpc nothing => exact h.keep hpc rfl
  case removeTimer hpc some' mode present => exact h.keep hpc rfl
  case deleteRemoved hpc => exact h.keep hpc rfl
  case hookUnlock hpc => exact h.release hpc rfl rfl

theorem reachable_locks {s : State ι} (h : Reachable Initial Run s) :
    Mutexes s.locks s.pcs Pc.holds := by
  refine h.invariant (fun s hs => ?_) fun s s' hi ⟨t, hs⟩ => step_locks hi hs
  obtain ⟨action, rfl⟩ := hs
  exact Mutexes.unheld fun _ => rfl

/-! ### The stages of the owner -/

inductive Phase (ι : Type) where
  | free
  | pushing (t : ι)
  | handling (t : ι)
  | acquiring (t : ι)
  | built (t : ι) (mode : Mode)
  | session (k : ℕ) (mode : Mode)
  | dropping (t : ι) (k : ℕ) (mode : Mode)
  | deleting (t : ι) (k : ℕ) (mode : Mode) (ids : List ℕ)
  | disarmed (t : ι) (k : ℕ) (mode : Mode)
  | released (t : ι) (k : ℕ)
  | forgetting (t : ι)

namespace Phase

def owner : Phase ι → Option ι
  | .free | .session _ _ => none
  | .pushing t | .handling t | .acquiring t | .built t _ | .dropping t _ _ | .deleting t _ _ _
  | .disarmed t _ _ | .released t _ | .forgetting t => some t

/-- Whether `HANDLED_SIGNALS` has SIGPROF. -/
def listed : Phase ι → Bool
  | .free | .pushing _ => false
  | _ => true

/-- Whether SIGPROF's action must be the handler. -/
def hooked : Phase ι → Bool
  | .free | .forgetting _ => false
  | _ => true

def active : Phase ι → Bool
  | .acquiring _ | .built _ _ | .session _ _ | .dropping _ _ _ | .deleting _ _ _ _
  | .disarmed _ _ _ => true
  | _ => false

def itimer : Phase ι → Bool
  | .built _ mode | .session _ mode | .dropping _ _ mode | .deleting _ _ mode _ =>
    decide (mode = .iTimer)
  | _ => false

/-- The one `SharedTimer` that is not empty, with the mode of its timer. -/
def slot : Phase ι → Option (ℕ × Mode)
  | .session k mode | .dropping _ k mode | .deleting _ k mode _ | .disarmed _ k mode => some (k, mode)
  | _ => none

/-- The session in whose timer hooks can be at work. -/
def hooks : Phase ι → Option ℕ
  | .session k _ | .dropping _ k _ => some k
  | _ => none

def live : Phase ι → List ℕ
  | .session k _ => [k]
  | _ => []

inductive At : Phase ι → Pc → Prop where
  | installPush {t mode} : At (.pushing t) (.installPush mode)
  | installed {t mode} : At (.handling t) (.installed mode)
  | handlerDrop {t} : At (.handling t) .handlerDrop
  | handlerDropLocked {t} : At (.handling t) .handlerDropLocked
  | acquired {t mode} : At (.acquiring t) (.acquired mode)
  | abandoned {t} : At (.acquiring t) .abandoned
  | timerStarted {t mode} : At (.built t mode) (.timerStarted mode)
  | dropping {t k mode} : At (.dropping t k mode) (.dropping k)
  | dropLocked {t k mode} : At (.dropping t k mode) (.dropLocked k)
  | dropBackend {t k mode ids} : At (.deleting t k mode ids) (.dropBackend k mode ids)
  | dropActive {t k mode} : At (.disarmed t k mode) (.dropActive k)
  | dropUnlock {t k} : At (.released t k) (.dropUnlock k)
  | handlerForget {t} : At (.forgetting t) .handlerForget

end Phase

inductive Bystander : Pc → Prop where
  | idle : Bystander .idle
  | starting {mode} : Bystander (.starting mode)
  | installLocked {mode} : Bystander (.installLocked mode)
  | created {k tid} : Bystander (.created k tid)
  | createdLocked {k tid} : Bystander (.createdLocked k tid)
  | timerCreated {k tid id} : Bystander (.timerCreated k tid id)
  | timerArmed {k tid id} : Bystander (.timerArmed k tid id)
  | timerFailed {k id} : Bystander (.timerFailed k id)
  | removed {k tid} : Bystander (.removed k tid)
  | removedLocked {k tid} : Bystander (.removedLocked k tid)
  | removedDelete {k id} : Bystander (.removedDelete k id)
  | hookUnlock {k} : Bystander (.hookUnlock k)

/-- The timer is in the map of session `k`, or in the hand of a hook at work there. -/
def Kept (slots : ℕ → Option Timer) (pcs : ι → Pc) (k id : ℕ) : Prop :=
  (∃ timer tid, slots k = some timer ∧ timer.threads.get tid = some id) ∨
    ∃ t, (pcs t).inside = some k ∧ (pcs t).hand = some id

def Phase.Accounts (armed : List ℕ) (slots : ℕ → Option Timer) (pcs : ι → Pc) : Phase ι → Prop
  | .session k _ | .dropping _ k _ => ∀ id ∈ armed, Kept slots pcs k id
  | .deleting _ _ _ ids => ∀ id ∈ armed, id ∈ ids
  | _ => armed = []

structure InPhase (s : State ι) (p : Phase ι) : Prop where
  held : Held p.owner s.pcs p.At Bystander
  listed : sigprof ∈ s.handledSignals ↔ p.listed = true
  action : p.hooked = true → s.action = .signalHandler
  once : s.installedOnce = true → s.action = .signalHandler ∨ s.action = .ign
  active : s.active = p.active
  itimer : s.itimer = p.itimer
  slot_some : ∀ k mode, p.slot = some (k, mode) → ∃ timer, s.slots k = some timer ∧ timer.mode = mode
  slot_only : ∀ k timer, s.slots k = some timer → p.slot = some (k, timer.mode)
  fresh : ∀ k, (s.slots k).isSome = true → k < s.nextSession
  live : s.sessions = p.live
  accounts : p.Accounts s.armed s.slots s.pcs
  inside : ∀ t k, (s.pcs t).inside = some k → p.hooks = some k
  vacant : ∀ t k tid, (s.pcs t).adds = some (k, tid) →
    ∀ timer, s.slots k = some timer → timer.threads.get tid = none

def Inv (s : State ι) : Prop := ∃ p, InPhase s p

omit [DecidableEq ι] in
theorem initial_inv {s : State ι} (h : Initial s) : Inv s := by
  obtain ⟨action, rfl⟩ := h
  exact ⟨.free, Held.nobody fun _ => .idle, ⟨nofun, nofun⟩, nofun, nofun, rfl, rfl, nofun, nofun, nofun,
    rfl, rfl, nofun, nofun⟩

namespace Phase

omit [DecidableEq ι] in
theorem At.not_bystander {p : Phase ι} {pc : Pc} (h : p.At pc) : ¬Bystander pc := by
  cases h <;> exact nofun

omit [DecidableEq ι] in
theorem At.holds_pushing {t : ι} {pc : Pc} (h : At (.pushing t) pc) :
    pc.holds = some .handledSignals := by
  cases h
  rfl

omit [DecidableEq ι] in
theorem At.holds_deleting {t : ι} {k : ℕ} {mode : Mode} {ids : List ℕ} {pc : Pc}
    (h : At (.deleting t k mode ids) pc) : pc.holds = some (.slot k) := by
  cases h
  rfl

omit [DecidableEq ι] in
theorem At.holds_disarmed {t : ι} {k : ℕ} {mode : Mode} {pc : Pc} (h : At (.disarmed t k mode) pc) :
    pc.holds = some (.slot k) := by
  cases h
  rfl

omit [DecidableEq ι] in
theorem accounts_kept {p : Phase ι} {k : ℕ} (h : p.hooks = some k) {armed : List ℕ}
    {slots : ℕ → Option Timer} {pcs : ι → Pc} :
    p.Accounts armed slots pcs ↔ ∀ id ∈ armed, Kept slots pcs k id := by
  cases p with
  | session k' mode =>
    cases h
    exact Iff.rfl
  | dropping t k' mode =>
    cases h
    exact Iff.rfl
  | _ => cases h

end Phase

theorem Kept.update {slots : ℕ → Option Timer} {pcs : ι → Pc} {k id : ℕ} (h : Kept slots pcs k id)
    {t : ι} {pc pc' : Pc} (hpc : pcs t = pc)
    (hh : pc.hand = none ∨ pc.hand ≠ some id ∨ pc'.hand = pc.hand ∧ pc'.inside = pc.inside) :
    Kept slots (Function.update pcs t pc') k id := by
  rcases h with h | ⟨j, hin, hhand⟩
  · exact Or.inl h
  · refine Or.inr ⟨j, ?_⟩
    by_cases hj : j = t
    · subst hj
      rw [hpc] at hin hhand
      rw [Function.update_self]
      rcases hh with hh | hh | ⟨hh, hi⟩
      · rw [hh] at hhand
        cases hhand
      · exact (hh hhand).elim
      · rw [hh, hi]
        exact ⟨hin, hhand⟩
    · rw [Function.update_of_ne hj]
      exact ⟨hin, hhand⟩

theorem Kept.inHand {slots : ℕ → Option Timer} {pcs : ι → Pc} {k id : ℕ} {t : ι} {pc : Pc}
    (hi : pc.inside = some k) (hh : pc.hand = some id) : Kept slots (Function.update pcs t pc) k id := by
  refine Or.inr ⟨t, ?_⟩
  rw [Function.update_self]
  exact ⟨hi, hh⟩

/- A step that touches neither the timers nor a hand leaves the account as it is. -/
theorem Phase.Accounts.update {p : Phase ι} {armed : List ℕ} {slots : ℕ → Option Timer} {pcs : ι → Pc}
    (h : p.Accounts armed slots pcs) {t : ι} {pc pc' : Pc} (hpc : pcs t = pc) (hh : pc.hand = none) :
    p.Accounts armed slots (Function.update pcs t pc') := by
  cases p with
  | session k mode => exact fun id hid => (h id hid).update hpc (.inl hh)
  | dropping t' k mode => exact fun id hid => (h id hid).update hpc (.inl hh)
  | _ => exact h

theorem forall_inside_update {pcs : ι → Pc} {p : Phase ι}
    (h : ∀ t k, (pcs t).inside = some k → p.hooks = some k) {t : ι} {pc : Pc}
    (hpc : ∀ k, pc.inside = some k → p.hooks = some k) :
    ∀ t' k, (Function.update pcs t pc t').inside = some k → p.hooks = some k := by
  intro t' k hk
  by_cases ht : t' = t
  · subst ht
    rw [Function.update_self] at hk
    exact hpc k hk
  · rw [Function.update_of_ne ht] at hk
    exact h t' k hk

theorem forall_adds_update {pcs : ι → Pc} {slots : ℕ → Option Timer}
    (h : ∀ t k tid, (pcs t).adds = some (k, tid) →
      ∀ timer, slots k = some timer → timer.threads.get tid = none) {t : ι} {pc : Pc}
    (hpc : ∀ k tid, pc.adds = some (k, tid) →
      ∀ timer, slots k = some timer → timer.threads.get tid = none) :
    ∀ t' k tid, (Function.update pcs t pc t').adds = some (k, tid) →
      ∀ timer, slots k = some timer → timer.threads.get tid = none := by
  intro t' k tid hk
  by_cases ht : t' = t
  · subst ht
    rw [Function.update_self] at hk
    exact hpc k tid hk
  · rw [Function.update_of_ne ht] at hk
    exact h t' k tid hk

namespace InPhase
variable {s : State ι} {p : Phase ι} {t : ι} {pc pc' : Pc}

omit [DecidableEq ι] in
theorem driver (h : InPhase s p) (hpc : s.pcs t = pc) (hn : ¬Bystander pc) :
    p.owner = some t ∧ p.At pc := by
  subst hpc
  exact ⟨h.held.owner_of_not_outside hn, h.held.inside_of_not_outside hn⟩

omit [DecidableEq ι] in
theorem owner_ne (h : InPhase s p) (hpc : s.pcs t = pc) (hb : Bystander pc) : p.owner ≠ some t := by
  subst hpc
  exact fun ho => ((h.held t).1 ho).not_bystander hb

/- A bystander goes on and touches nothing but its mutex. -/
theorem pass (h : InPhase s p) (hpc : s.pcs t = pc) (hb : Bystander pc) (hb' : Bystander pc')
    (hh : pc.hand = none) (hi : ∀ k, pc'.inside = some k → p.hooks = some k)
    (ha : ∀ k tid, pc'.adds = some (k, tid) →
      ∀ timer, s.slots k = some timer → timer.threads.get tid = none)
    (locks : Mutex → Option ι) (nextTimer : ℕ) :
    InPhase { s with locks, nextTimer, pcs := Function.update s.pcs t pc' } p :=
  ⟨h.held.pass (h.owner_ne hpc hb) hb', h.listed, h.action, h.once, h.active, h.itimer, h.slot_some,
    h.slot_only, h.fresh, h.live, h.accounts.update hpc hh, forall_inside_update h.inside hi,
    forall_adds_update h.vacant ha⟩

/- The owner goes on within its stage. -/
theorem drive (h : InPhase s p) (hpc : s.pcs t = pc) (hown : p.owner = some t) (hat : p.At pc')
    (hh : pc.hand = none) (hi : pc'.inside = none) (ha : pc'.adds = none)
    (locks : Mutex → Option ι) : InPhase { s with locks, pcs := Function.update s.pcs t pc' } p := by
  have hheld := h.held.hold (i := t) (fun j hj => Option.some.inj (hj.symm.trans hown)) hat
  rw [← hown] at hheld
  refine ⟨hheld, h.listed, h.action, h.once, h.active, h.itimer, h.slot_some, h.slot_only, h.fresh,
    h.live, h.accounts.update hpc hh, forall_inside_update h.inside fun k hk => ?_,
    forall_adds_update h.vacant fun k tid hk => ?_⟩
  · rw [hi] at hk
    cases hk
  · rw [ha] at hk
    cases hk

theorem advance (h : InPhase s p) (hpc : s.pcs t = pc) (hn : ¬Bystander pc) (hat : p.At pc → p.At pc')
    (hh : pc.hand = none) (hi : pc'.inside = none) (ha : pc'.adds = none)
    (locks : Mutex → Option ι) : InPhase { s with locks, pcs := Function.update s.pcs t pc' } p := by
  obtain ⟨hown, hnow⟩ := h.driver hpc hn
  exact h.drive hpc hown (hat hnow) hh hi ha locks

/- In a stage without hooks nobody is inside. -/
omit [DecidableEq ι] in
theorem nobody_inside (h : InPhase s p) (hk : p.hooks = none) (j : ι) (k : ℕ) :
    (s.pcs j).inside ≠ some k := by
  intro hin
  rw [h.inside j k hin] at hk
  cases hk

theorem inside_empty (h : ∀ j k, (s.pcs j).inside ≠ some k) (hi : pc.inside = none) (p' : Phase ι) :
    ∀ j k, (Function.update s.pcs t pc j).inside = some k → p'.hooks = some k :=
  forall_inside_update (fun j k hk => (h j k hk).elim) fun k hk => by
    rw [hi] at hk
    cases hk

theorem vacant_owner (h : InPhase s p) (ha : pc.adds = none) :
    ∀ j k tid, (Function.update s.pcs t pc j).adds = some (k, tid) →
      ∀ timer, s.slots k = some timer → timer.threads.get tid = none :=
  forall_adds_update h.vacant fun k tid hk => by
    rw [ha] at hk
    cases hk

omit [DecidableEq ι] in
theorem eq_free (h : InPhase s p) (hl : Mutexes s.locks s.pcs Pc.holds) {mode : Mode}
    (hpc : s.pcs t = .installLocked mode) (unlisted : sigprof ∉ s.handledSignals) : p = .free := by
  rw [h.listed] at unlisted
  cases p with
  | free => rfl
  | pushing j =>
    have he : t = j := hl.exclusive (by rw [hpc]; rfl) ((h.held j).1 rfl).holds_pushing
    exact (h.owner_ne hpc .installLocked (congrArg some he.symm)).elim
  | _ => exact (unlisted rfl).elim

theorem sigaction (h : InPhase s p) (hl : Mutexes s.locks s.pcs Pc.holds) {mode : Mode}
    (hpc : s.pcs t = .installLocked mode) (unlisted : sigprof ∉ s.handledSignals) :
    InPhase { s with
      action := .signalHandler, installedOnce := true
      pcs := Function.update s.pcs t (.installPush mode) } (.pushing t) := by
  obtain rfl := h.eq_free hl hpc unlisted
  exact ⟨h.held.hold nofun .installPush, h.listed, fun _ => rfl, fun _ => .inl rfl, h.active, h.itimer,
    nofun, h.slot_only, h.fresh, h.live, h.accounts, inside_empty (h.nobody_inside rfl) rfl _,
    h.vacant_owner rfl⟩

theorem installPush (h : InPhase s p) {mode : Mode} (hpc : s.pcs t = .installPush mode)
    (locks : Mutex → Option ι) :
    InPhase { s with
      locks, handledSignals := s.handledSignals ++ [sigprof]
      pcs := Function.update s.pcs t (.installed mode) } (.handling t) := by
  obtain ⟨hown, hat⟩ := h.driver hpc nofun
  cases hat
  cases hown
  exact ⟨h.held.hold (fun j hj => (Option.some.inj hj).symm) .installed,
    ⟨fun _ => rfl, fun _ => List.mem_append_right _ List.mem_cons_self⟩, fun _ => h.action rfl, h.once,
    h.active, h.itimer, nofun, h.slot_only, h.fresh, h.live, h.accounts,
    inside_empty (h.nobody_inside rfl) rfl _, h.vacant_owner rfl⟩

theorem acquire (h : InPhase s p) {mode : Mode} (hpc : s.pcs t = .installed mode) :
    InPhase { s with active := true, pcs := Function.update s.pcs t (.acquired mode) }
      (.acquiring t) := by
  obtain ⟨hown, hat⟩ := h.driver hpc nofun
  cases hat
  cases hown
  exact ⟨h.held.hold (fun j hj => (Option.some.inj hj).symm) .acquired, h.listed, h.action, h.once, rfl,
    h.itimer, nofun, h.slot_only, h.fresh, h.live, h.accounts, inside_empty (h.nobody_inside rfl) rfl _,
    h.vacant_owner rfl⟩

/- The timer is there: the interval timer is armed, or no thread has one yet. -/
theorem build (h : InPhase s p) {mode : Mode} (hpc : s.pcs t = .acquired mode) (itimer : Bool)
    (hit : itimer = decide (mode = .iTimer)) :
    InPhase { s with itimer, pcs := Function.update s.pcs t (.timerStarted mode) } (.built t mode) := by
  obtain ⟨hown, hat⟩ := h.driver hpc nofun
  cases hat
  cases hown
  exact ⟨h.held.hold (fun j hj => (Option.some.inj hj).symm) .timerStarted, h.listed, h.action, h.once,
    h.active, hit, nofun, h.slot_only, h.fresh, h.live, h.accounts,
    inside_empty (h.nobody_inside rfl) rfl _, h.vacant_owner rfl⟩

theorem releaseActive (h : InPhase s p) (hpc : s.pcs t = .abandoned) :
    InPhase { s with active := false, pcs := Function.update s.pcs t .handlerDrop } (.handling t) := by
  obtain ⟨hown, hat⟩ := h.driver hpc nofun
  cases hat
  cases hown
  exact ⟨h.held.hold (fun j hj => (Option.some.inj hj).symm) .handlerDrop, h.listed, h.action, h.once, rfl,
    h.itimer, nofun, h.slot_only, h.fresh, h.live, h.accounts, inside_empty (h.nobody_inside rfl) rfl _,
    h.vacant_owner rfl⟩

omit [DecidableEq ι] in
theorem slots_none (h : InPhase s p) (hs : p.slot = none) (k : ℕ) : s.slots k = none := by
  cases hk : s.slots k with
  | none => rfl
  | some timer =>
    have := h.slot_only k timer hk
    rw [hs] at this
    cases this

theorem sessionStarts (h : InPhase s p) {mode : Mode} (hpc : s.pcs t = .timerStarted mode) :
    InPhase { s with
      slots := Function.update s.slots s.nextSession (some ⟨mode, HashMap.empty⟩)
      sessions := s.nextSession :: s.sessions, nextSession := s.nextSession + 1
      pcs := Function.update s.pcs t .idle } (.session s.nextSession mode) := by
  obtain ⟨hown, hat⟩ := h.driver hpc nofun
  cases hat
  cases hown
  have hnone := h.slots_none rfl
  have hsome : ∀ k timer, Function.update s.slots s.nextSession (some ⟨mode, HashMap.empty⟩) k = some timer →
      k = s.nextSession ∧ timer = ⟨mode, HashMap.empty⟩ := by
    intro k timer hk
    by_cases hkn : k = s.nextSession
    · rw [hkn, Function.update_self] at hk
      exact ⟨hkn, (Option.some.inj hk).symm⟩
    · rw [Function.update_of_ne hkn, hnone k] at hk
      cases hk
  refine ⟨h.held.drop .idle, h.listed, h.action, h.once, h.active, h.itimer, fun k m hk => ?_,
    fun k timer hk => ?_, fun k hk => ?_, ?_, ?_, inside_empty (h.nobody_inside rfl) rfl _,
    fun j k tid hk timer ht => ?_⟩
  · cases hk
    exact ⟨_, Function.update_self .., rfl⟩
  · obtain ⟨rfl, rfl⟩ := hsome k timer hk
    rfl
  · obtain ⟨timer, hk⟩ := Option.isSome_iff_exists.mp hk
    rw [(hsome k timer hk).1]
    exact Nat.lt_succ_self _
  · exact congrArg (s.nextSession :: ·) h.live
  · have harmed : s.armed = [] := h.accounts
    intro id hid
    rw [harmed] at hid
    cases hid
  · rw [(hsome k timer ht).2]
    exact HashMap.get_empty tid

theorem dropSession (h : InPhase s p) (hpc : s.pcs t = .idle) {k : ℕ} (live : k ∈ s.sessions) :
    ∃ mode, InPhase { s with
      sessions := s.sessions.erase k, pcs := Function.update s.pcs t (.dropping k) }
      (.dropping t k mode) := by
  have hlive := h.live
  cases p with
  | session k' mode =>
    rw [hlive, Phase.live, List.mem_singleton] at live
    subst live
    refine ⟨mode, h.held.hold nofun .dropping, h.listed, h.action, h.once, h.active, h.itimer, h.slot_some,
      h.slot_only, h.fresh, ?_, fun id hid => (h.accounts id hid).update hpc (.inl rfl),
      forall_inside_update h.inside nofun, h.vacant_owner rfl⟩
    show s.sessions.erase k = []
    rw [hlive]
    exact List.erase_cons_head k []
  | _ =>
    rw [hlive] at live
    cases live

/- The drop holds the mutex that every hook at work needs. -/
theorem dropTimer (h : InPhase s p) (hl : Mutexes s.locks s.pcs Pc.holds) {k : ℕ} {timer : Timer}
    {ids : List ℕ} (hpc : s.pcs t = .dropLocked k) (some' : s.slots k = some timer)
    (all : ids.Perm (timer.threads.toList.map Prod.snd)) :
    InPhase { s with pcs := Function.update s.pcs t (.dropBackend k timer.mode ids) }
      (.deleting t k timer.mode ids) := by
  have halone : ∀ j k', (s.pcs j).inside ≠ some k' := by
    intro j k' hin
    obtain ⟨hown, hat⟩ := h.driver hpc nofun
    have hhooks := h.inside j k' hin
    cases hat
    cases hhooks
    have he : j = t := hl.exclusive (Pc.holds_of_inside hin) (by rw [hpc]; rfl)
    rw [he, hpc] at hin
    cases hin
  obtain ⟨hown, hat⟩ := h.driver hpc nofun
  cases hat with
  | @dropLocked _ _ mode =>
    cases hown
    have hmode : timer.mode = mode := by
      have := h.slot_only k timer some'
      cases this
      rfl
    subst hmode
    refine ⟨h.held.hold (fun j hj => (Option.some.inj hj).symm) .dropBackend, h.listed, h.action, h.once,
      h.active, h.itimer, h.slot_some, h.slot_only, h.fresh, h.live, fun id hid => ?_,
      inside_empty halone rfl _, h.vacant_owner rfl⟩
    rcases h.accounts id hid with ⟨timer', tid, hs, hget⟩ | ⟨j, hin, -⟩
    · cases hs.symm.trans some'
      exact all.mem_iff.mpr (List.mem_map.mpr ⟨(tid, id), (HashMap.mem_toList _ _ _).mpr hget, rfl⟩)
    · exact (halone j k hin).elim

theorem deleteThread (h : InPhase s p) {k id : ℕ} {mode : Mode} {ids : List ℕ}
    (hpc : s.pcs t = .dropBackend k mode (id :: ids)) :
    InPhase { s with
      armed := delete s.armed id, pcs := Function.update s.pcs t (.dropBackend k mode ids) }
      (.deleting t k mode ids) := by
  obtain ⟨hown, hat⟩ := h.driver hpc nofun
  cases hat
  cases hown
  refine ⟨h.held.hold (fun j hj => (Option.some.inj hj).symm) .dropBackend, h.listed, h.action, h.once,
    h.active, h.itimer, h.slot_some, h.slot_only, h.fresh, h.live, fun id' hid' => ?_,
    inside_empty (h.nobody_inside rfl) rfl _, h.vacant_owner rfl⟩
  obtain ⟨hmem, hne⟩ := List.mem_filter.mp hid'
  exact List.mem_of_ne_of_mem (of_decide_eq_true hne) (h.accounts id' hmem)

theorem disarm (h : InPhase s p) {k : ℕ} {mode : Mode} (hpc : s.pcs t = .dropBackend k mode []) :
    InPhase { s with
      itimer := if mode = .iTimer then false else s.itimer
      pcs := Function.update s.pcs t (.dropActive k) } (.disarmed t k mode) := by
  obtain ⟨hown, hat⟩ := h.driver hpc nofun
  cases hat
  cases hown
  refine ⟨h.held.hold (fun j hj => (Option.some.inj hj).symm) .dropActive, h.listed, h.action, h.once,
    h.active, ?_, h.slot_some, h.slot_only, h.fresh, h.live, ?_, inside_empty (h.nobody_inside rfl) rfl _,
    h.vacant_owner rfl⟩
  · have hit : s.itimer = decide (mode = .iTimer) := h.itimer
    cases mode with
    | iTimer => rfl
    | cTimer => exact hit
  · exact List.eq_nil_iff_forall_not_mem.mpr fun id hid => List.not_mem_nil (h.accounts id hid)

theorem dropActive (h : InPhase s p) {k : ℕ} (hpc : s.pcs t = .dropActive k) :
    InPhase { s with
      active := false, slots := Function.update s.slots k none
      pcs := Function.update s.pcs t (.dropUnlock k) } (.released t k) := by
  obtain ⟨hown, hat⟩ := h.driver hpc nofun
  cases hat
  cases hown
  have hnone : ∀ k', Function.update s.slots k none k' = none := by
    intro k'
    by_cases hk : k' = k
    · rw [hk, Function.update_self]
    · rw [Function.update_of_ne hk]
      cases hs : s.slots k' with
      | none => rfl
      | some timer =>
        cases h.slot_only k' timer hs
        exact (hk rfl).elim
  refine ⟨h.held.hold (fun j hj => (Option.some.inj hj).symm) .dropUnlock, h.listed, h.action, h.once, rfl,
    h.itimer, nofun, fun k' timer hk => ?_, fun k' hk => ?_, h.live, h.accounts,
    inside_empty (h.nobody_inside rfl) rfl _, fun j k' tid _ timer hk => ?_⟩
  · cases (hnone k').symm.trans hk
  · obtain ⟨timer, htimer⟩ := Option.isSome_iff_exists.mp hk
    cases (hnone k').symm.trans htimer
  · cases (hnone k').symm.trans hk

theorem dropUnlock (h : InPhase s p) {k : ℕ} (hpc : s.pcs t = .dropUnlock k) (locks : Mutex → Option ι) :
    InPhase { s with locks, pcs := Function.update s.pcs t .handlerDrop } (.handling t) := by
  obtain ⟨hown, hat⟩ := h.driver hpc nofun
  cases hat
  cases hown
  exact ⟨h.held.hold (fun j hj => (Option.some.inj hj).symm) .handlerDrop, h.listed, h.action, h.once,
    h.active, h.itimer, nofun, h.slot_only, h.fresh, h.live, h.accounts,
    inside_empty (h.nobody_inside rfl) rfl _, h.vacant_owner rfl⟩

/- SIGPROF is ignored, or at worst still handled, but never back to the default. -/
theorem unhook (h : InPhase s p) (hpc : s.pcs t = .handlerDropLocked) {action : Action}
    (ha : action = .ign ∨ action = s.action) :
    InPhase { s with action, pcs := Function.update s.pcs t .handlerForget } (.forgetting t) := by
  obtain ⟨hown, hat⟩ := h.driver hpc nofun
  cases hat
  cases hown
  refine ⟨h.held.hold (fun j hj => (Option.some.inj hj).symm) .handlerForget, h.listed, nofun, fun _ => ?_,
    h.active, h.itimer, nofun, h.slot_only, h.fresh, h.live, h.accounts,
    inside_empty (h.nobody_inside rfl) rfl _, h.vacant_owner rfl⟩
  rcases ha with rfl | rfl
  · exact .inr rfl
  · exact .inl (h.action rfl)

theorem forget (h : InPhase s p) (hpc : s.pcs t = .handlerForget) (locks : Mutex → Option ι) :
    InPhase { s with
      locks, handledSignals := s.handledSignals.filter (· ≠ sigprof)
      pcs := Function.update s.pcs t .idle } .free := by
  obtain ⟨hown, hat⟩ := h.driver hpc nofun
  cases hat
  cases hown
  refine ⟨h.held.drop .idle, ⟨fun hm => ?_, nofun⟩, nofun, h.once, h.active, h.itimer, nofun, h.slot_only,
    h.fresh, h.live, h.accounts, inside_empty (h.nobody_inside rfl) rfl _, h.vacant_owner rfl⟩
  exact (of_decide_eq_true (List.mem_filter.mp hm).2 rfl).elim

/-! ### The hooks -/

/- A hook that holds the mutex of a timer finds it before or after its drop, not in between. -/
omit [DecidableEq ι] in
theorem hooks_of_slot (h : InPhase s p) (hl : Mutexes s.locks s.pcs Pc.holds) {k : ℕ} {timer : Timer}
    (hpc : s.pcs t = pc) (hb : Bystander pc) (hh : pc.holds = some (.slot k))
    (some' : s.slots k = some timer) : p.hooks = some k := by
  have hslot := h.slot_only k timer some'
  cases p with
  | session k' mode =>
    cases hslot
    rfl
  | dropping j k' mode =>
    cases hslot
    rfl
  | deleting j k' mode ids =>
    cases hslot
    have he : t = j := hl.exclusive (by rw [hpc, hh]) ((h.held j).1 rfl).holds_deleting
    exact (h.owner_ne hpc hb (congrArg some he.symm)).elim
  | disarmed j k' mode =>
    cases hslot
    have he : t = j := hl.exclusive (by rw [hpc, hh]) ((h.held j).1 rfl).holds_disarmed
    exact (h.owner_ne hpc hb (congrArg some he.symm)).elim
  | _ => cases hslot

theorem settime (h : InPhase s p) {k tid id : ℕ} (hpc : s.pcs t = .timerCreated k tid id) :
    InPhase { s with
      armed := id :: s.armed, pcs := Function.update s.pcs t (.timerArmed k tid id) } p := by
  have hhooks := h.inside t k (by rw [hpc]; rfl)
  have hvacant := h.vacant t k tid (by rw [hpc]; rfl)
  refine ⟨h.held.pass (h.owner_ne hpc .timerCreated) .timerArmed, h.listed, h.action, h.once, h.active,
    h.itimer, h.slot_some, h.slot_only, h.fresh, h.live, ?_,
    forall_inside_update h.inside fun k' hk => ?_, forall_adds_update h.vacant fun k' tid' hk => ?_⟩
  · refine (Phase.accounts_kept hhooks).mpr (List.forall_mem_cons.mpr ⟨.inHand rfl rfl,
      fun id' hid' => ?_⟩)
    exact ((Phase.accounts_kept hhooks).mp h.accounts id' hid').update hpc (.inl rfl)
  · cases hk
    exact hhooks
  · cases hk
    exact hvacant

/- A hook deletes a timer that it holds alone. -/
theorem deleteHand (h : InPhase s p) {k id : ℕ} (hpc : s.pcs t = pc) (hb : Bystander pc)
    (hin : pc.inside = some k) (hh : ∀ id', pc.hand = some id' → id' = id) :
    InPhase { s with armed := delete s.armed id, pcs := Function.update s.pcs t (.hookUnlock k) } p := by
  have hhooks := h.inside t k (by rw [hpc, hin])
  refine ⟨h.held.pass (h.owner_ne hpc hb) .hookUnlock, h.listed, h.action, h.once, h.active, h.itimer,
    h.slot_some, h.slot_only, h.fresh, h.live, (Phase.accounts_kept hhooks).mpr fun id' hid' => ?_,
    forall_inside_update h.inside nofun, forall_adds_update h.vacant nofun⟩
  obtain ⟨hmem, hne⟩ := List.mem_filter.mp hid'
  refine ((Phase.accounts_kept hhooks).mp h.accounts id' hmem).update hpc (.inr (.inl fun he => ?_))
  exact of_decide_eq_true hne (hh id' he)

omit [DecidableEq ι] in
/- The map of a timer changes, its mode and the other timers do not. -/
theorem slot_threads (h : InPhase s p) {k : ℕ} {timer : Timer} (some' : s.slots k = some timer)
    (threads : HashMap ℕ ℕ) :
    (∀ k' mode, p.slot = some (k', mode) → ∃ timer',
      Function.update s.slots k (some { timer with threads }) k' = some timer' ∧ timer'.mode = mode) ∧
    (∀ k' timer', Function.update s.slots k (some { timer with threads }) k' = some timer' →
      p.slot = some (k', timer'.mode)) ∧
    ∀ k', (Function.update s.slots k (some { timer with threads }) k').isSome = true →
      k' < s.nextSession := by
  refine ⟨fun k' mode hs => ?_, fun k' timer' hs => ?_, fun k' hs => ?_⟩
  · by_cases hk : k' = k
    · subst hk
      obtain ⟨timer', hs', hm⟩ := h.slot_some k' mode hs
      cases some'.symm.trans hs'
      exact ⟨_, Function.update_self .., hm⟩
    · rw [Function.update_of_ne hk]
      exact h.slot_some k' mode hs
  · by_cases hk : k' = k
    · subst hk
      rw [Function.update_self] at hs
      cases hs
      exact h.slot_only k' timer some'
    · rw [Function.update_of_ne hk] at hs
      exact h.slot_only k' timer' hs
  · by_cases hk : k' = k
    · subst hk
      exact h.fresh k' (by rw [some']; rfl)
    · rw [Function.update_of_ne hk] at hs
      exact h.fresh k' hs

/- Only one hook at a time is at work in a timer, so a change of the map finds no other
one with a vacant entry in mind. -/
theorem vacant_threads (h : InPhase s p) (hl : Mutexes s.locks s.pcs Pc.holds) {k : ℕ} {timer : Timer}
    (hpc : s.pcs t = pc) (hh : pc.holds = some (.slot k)) (ha : pc'.adds = none)
    (threads : HashMap ℕ ℕ) :
    ∀ j k' tid, (Function.update s.pcs t pc' j).adds = some (k', tid) → ∀ timer',
      Function.update s.slots k (some { timer with threads }) k' = some timer' →
        timer'.threads.get tid = none := by
  intro j k' tid hadds timer' hs
  by_cases hj : j = t
  · subst hj
    rw [Function.update_self, ha] at hadds
    cases hadds
  · rw [Function.update_of_ne hj] at hadds
    have hk : k' ≠ k := by
      intro he
      rw [he] at hadds
      exact hj (hl.exclusive (Pc.holds_of_inside (Pc.inside_of_adds hadds)) (by rw [hpc, hh]))
    rw [Function.update_of_ne hk] at hs
    exact h.vacant j k' tid hadds timer' hs

theorem insertTimer (h : InPhase s p) (hl : Mutexes s.locks s.pcs Pc.holds) {k tid id : ℕ}
    {timer : Timer} (hpc : s.pcs t = .timerArmed k tid id) (some' : s.slots k = some timer) :
    InPhase { s with
      slots := Function.update s.slots k (some { timer with threads := timer.threads.insert tid id })
      pcs := Function.update s.pcs t (.hookUnlock k) } p := by
  have hhooks := h.inside t k (by rw [hpc]; rfl)
  have hvacant := h.vacant t k tid (by rw [hpc]; rfl) timer some'
  obtain ⟨hsome, honly, hfresh⟩ := h.slot_threads some' (timer.threads.insert tid id)
  refine ⟨h.held.pass (h.owner_ne hpc .timerArmed) .hookUnlock, h.listed, h.action, h.once, h.active,
    h.itimer, hsome, honly, hfresh, h.live, (Phase.accounts_kept hhooks).mpr fun id' hid' => ?_,
    forall_inside_update h.inside nofun, h.vacant_threads hl hpc rfl rfl _⟩
  by_cases hid : id' = id
  · subst hid
    exact .inl ⟨_, tid, Function.update_self .., HashMap.get_insert ..⟩
  · have hne : (Pc.timerArmed k tid id).hand ≠ some id' := fun he => hid (Option.some.inj he).symm
    have hkept : Kept s.slots (Function.update s.pcs t (.hookUnlock k)) k id' :=
      ((Phase.accounts_kept hhooks).mp h.accounts id' hid').update hpc (.inr (.inl hne))
    rcases hkept with ⟨timer', tid', hs, hget⟩ | hhand
    · cases some'.symm.trans hs
      have htid : tid' ≠ tid := by
        intro he
        rw [he, hvacant] at hget
        cases hget
      exact .inl ⟨_, tid', Function.update_self .., by rw [HashMap.get_insert_ne _ _ htid, hget]⟩
    · exact .inr hhand

theorem removeTimer (h : InPhase s p) (hl : Mutexes s.locks s.pcs Pc.holds) {k tid id : ℕ}
    {timer : Timer} (hpc : s.pcs t = .removedLocked k tid) (some' : s.slots k = some timer)
    (present : timer.threads.get tid = some id) :
    InPhase { s with
      slots := Function.update s.slots k (some { timer with threads := timer.threads.erase tid })
      pcs := Function.update s.pcs t (.removedDelete k id) } p := by
  have hhooks := h.hooks_of_slot hl hpc .removedLocked rfl some'
  obtain ⟨hsome, honly, hfresh⟩ := h.slot_threads some' (timer.threads.erase tid)
  refine ⟨h.held.pass (h.owner_ne hpc .removedLocked) .removedDelete, h.listed, h.action, h.once, h.active,
    h.itimer, hsome, honly, hfresh, h.live, (Phase.accounts_kept hhooks).mpr fun id' hid' => ?_,
    forall_inside_update h.inside fun k' hk => ?_, h.vacant_threads hl hpc rfl rfl _⟩
  · have hkept : Kept s.slots (Function.update s.pcs t (.removedDelete k id)) k id' :=
      ((Phase.accounts_kept hhooks).mp h.accounts id' hid').update hpc (.inl rfl)
    rcases hkept with ⟨timer', tid', hs, hget⟩ | hhand
    · cases some'.symm.trans hs
      by_cases htid : tid' = tid
      · rw [htid, present] at hget
        cases hget
        exact .inHand rfl rfl
      · exact .inl ⟨_, tid', Function.update_self .., by rw [HashMap.get_erase_ne _ htid, hget]⟩
    · exact .inr hhand
  · cases hk
    exact hhooks

end InPhase

theorem step_inv {t : ι} {s s' : State ι} (hl : Mutexes s.locks s.pcs Pc.holds) (h : Inv s)
    (hs : Step t s s') : Inv s' := by
  obtain ⟨p, h⟩ := h
  cases hs
  case start hpc mode => exact ⟨p, h.pass hpc .idle .starting rfl nofun nofun _ _⟩
  case startFails hpc => exact ⟨p, h.pass hpc .starting .idle rfl nofun nofun _ _⟩
  case installLock hpc free => exact ⟨p, h.pass hpc .starting .installLocked rfl nofun nofun _ _⟩
  case installRefused hpc listed => exact ⟨p, h.pass hpc .installLocked .idle rfl nofun nofun _ _⟩
  case sigactionFails hpc unlisted => exact ⟨p, h.pass hpc .installLocked .idle rfl nofun nofun _ _⟩
  case sigaction hpc unlisted => exact ⟨_, h.sigaction hl hpc unlisted⟩
  case installPush hpc => exact ⟨_, h.installPush hpc _⟩
  case modeRefused hpc => exact ⟨p, h.advance hpc nofun (fun | .installed => .handlerDrop) rfl rfl rfl _⟩
  case activeRefused hpc taken => exact ⟨p, h.advance hpc nofun (fun | .installed => .handlerDrop) rfl rfl rfl _⟩
  case acquire hpc free => exact ⟨_, h.acquire hpc⟩
  case setitimer hpc => exact ⟨_, h.build hpc true rfl⟩
  case setitimerFails hpc => exact ⟨p, h.advance hpc nofun (fun | .acquired => .abandoned) rfl rfl rfl _⟩
  case noThreads hpc =>
    obtain ⟨hown, hat⟩ := h.driver hpc nofun
    cases hat
    exact ⟨_, h.build hpc s.itimer h.itimer⟩
  case releaseActive hpc => exact ⟨_, h.releaseActive hpc⟩
  case sessionStarts hpc => exact ⟨_, h.sessionStarts hpc⟩
  case dropSession hpc live =>
    obtain ⟨mode, hp⟩ := h.dropSession hpc live
    exact ⟨_, hp⟩
  case dropLock hpc free => exact ⟨p, h.advance hpc nofun (fun | .dropping => .dropLocked) rfl rfl rfl _⟩
  case dropNone hpc none' =>
    obtain ⟨hown, hat⟩ := h.driver hpc nofun
    cases hat
    obtain ⟨timer, hsome, -⟩ := h.slot_some _ _ rfl
    cases none'.symm.trans hsome
  case dropTimer hpc some' all => exact ⟨_, h.dropTimer hl hpc some' all⟩
  case deleteThread hpc => exact ⟨_, h.deleteThread hpc⟩
  case disarm hpc => exact ⟨_, h.disarm hpc⟩
  case dropActive hpc => exact ⟨_, h.dropActive hpc⟩
  case dropUnlock hpc => exact ⟨_, h.dropUnlock hpc _⟩
  case handlerDropLock hpc free => exact ⟨p, h.advance hpc nofun (fun | .handlerDrop => .handlerDropLocked) rfl rfl rfl _⟩
  case ignore hpc =>
    refine ⟨_, h.unhook hpc ?_⟩
    split
    · exact .inl rfl
    · exact .inr rfl
  case queryFails hpc => exact ⟨_, h.unhook hpc (.inr rfl)⟩
  case forget hpc => exact ⟨_, h.forget hpc _⟩
  case threadCreated hpc shared tid => exact ⟨p, h.pass hpc .idle .created rfl nofun nofun _ _⟩
  case createdLock hpc free => exact ⟨p, h.pass hpc .created .createdLocked rfl nofun nofun _ _⟩
  case createdNothing hpc nothing =>
    exact ⟨p, h.pass hpc .createdLocked .hookUnlock rfl nofun nofun _ _⟩
  case timerCreateFails hpc some' vacant =>
    exact ⟨p, h.pass hpc .createdLocked .hookUnlock rfl nofun nofun _ _⟩
  case timerCreate k tid timer hpc some' vacant =>
    refine ⟨p, h.pass hpc .createdLocked .timerCreated rfl (fun k' hk => ?_) (fun k' tid' hk => ?_) _ _⟩
    · cases hk
      exact h.hooks_of_slot hl hpc .createdLocked rfl some'
    · cases hk
      intro timer' hs
      cases some'.symm.trans hs
      exact vacant.2
  case settime hpc => exact ⟨p, h.settime hpc⟩
  case settimeFails k tid id hpc =>
    refine ⟨p, h.pass hpc .timerCreated .timerFailed rfl (fun k' hk => ?_) nofun _ _⟩
    cases hk
    exact h.inside t k (by rw [hpc]; rfl)
  case deleteFailed hpc => exact ⟨p, h.deleteHand hpc .timerFailed rfl nofun⟩
  case insertTimer hpc some' => exact ⟨p, h.insertTimer hl hpc some'⟩
  case threadRemoved hpc shared tid => exact ⟨p, h.pass hpc .idle .removed rfl nofun nofun _ _⟩
  case removedLock hpc free => exact ⟨p, h.pass hpc .removed .removedLocked rfl nofun nofun _ _⟩
  case removedNothing hpc nothing =>
    exact ⟨p, h.pass hpc .removedLocked .hookUnlock rfl nofun nofun _ _⟩
  case removeTimer hpc some' mode present => exact ⟨p, h.removeTimer hl hpc some' present⟩
  case deleteRemoved hpc =>
    exact ⟨p, h.deleteHand hpc .removedDelete rfl fun id' he => (Option.some.inj he).symm⟩
  case hookUnlock hpc => exact ⟨p, h.pass hpc .hookUnlock .idle rfl nofun nofun _ _⟩

theorem reachable_inv {s : State ι} (h : Reachable Initial Run s) : Inv s :=
  h.invariant_with (fun _ hs => reachable_locks hs) (fun _ hs => initial_inv hs)
    fun _ _ hl hi ⟨_, hs⟩ => step_inv hl hi hs

/-! ### What holds in every state -/

/-- Where a `Timer` value is: in a `SharedTimer`, or on its way from `Timer::start`. -/
inductive Place (ι : Type) where
  | slot (k : ℕ)
  | thread (t : ι)

def HasTimer (s : State ι) : Place ι → Prop
  | .slot k => (s.slots k).isSome = true
  | .thread t => ∃ mode, s.pcs t = .timerStarted mode

/-- `Timer::start` holds `Active`. -/
def TimerStarting (s : State ι) : Prop := ∃ t, (∃ mode, s.pcs t = .acquired mode) ∨ s.pcs t = .abandoned

/-- The thread is dropping session `k`, up to the end of its timer. -/
def Pc.drops : Pc → Option ℕ
  | .dropping k | .dropLocked k | .dropBackend k _ _ | .dropActive k => some k
  | _ => none

/-- The points of a thread that neither starts nor drops a session. -/
inductive Pc.Aside : Pc → Prop where
  | idle : Aside .idle
  | created {k tid} : Aside (.created k tid)
  | createdLocked {k tid} : Aside (.createdLocked k tid)
  | timerCreated {k tid id} : Aside (.timerCreated k tid id)
  | timerArmed {k tid id} : Aside (.timerArmed k tid id)
  | timerFailed {k id} : Aside (.timerFailed k id)
  | removed {k tid} : Aside (.removed k tid)
  | removedLocked {k tid} : Aside (.removedLocked k tid)
  | removedDelete {k id} : Aside (.removedDelete k id)
  | hookUnlock {k} : Aside (.hookUnlock k)

theorem Pc.Aside.not_handledSignals {pc : Pc} (h : pc.Aside) : pc.holds ≠ some .handledSignals := by
  cases h <;> exact nofun

/-- No session runs and none is being started or dropped; hooks may be at work. -/
def Quiet (s : State ι) : Prop := s.sessions = [] ∧ ∀ t, (s.pcs t).Aside

structure Guarded (s : State ι) : Prop where
  handler : s.itimer = true ∨ s.armed ≠ [] → s.action = .signalHandler
  oneTimer : ∀ p q, HasTimer s p → HasTimer s q → p = q
  active : s.active = true ↔ (∃ p, HasTimer s p) ∨ TimerStarting s
  neverDefault : s.installedOnce = true → s.action ≠ .dfl
  /-- the `SharedTimer` of a dropped session is empty -/
  dropped : ∀ k, (s.slots k).isSome = true → k ∈ s.sessions ∨ ∃ t, (s.pcs t).drops = some k
  /-- and `thread_created` through it arms nothing -/
  arms : ∀ t k tid s', s.pcs t = .createdLocked k tid → s.slots k = none → Step t s s' →
    s' = { s with pcs := Function.update s.pcs t (.hookUnlock k) }
  clean : Quiet s → s.itimer = false ∧ s.armed = [] ∧ s.active = false ∧ sigprof ∉ s.handledSignals
  startable : Quiet s → ∀ t mode, s.pcs t = .idle →
    ∃ s', Relation.ReflTransGen Run s s' ∧ ∃ k ∈ s'.sessions, (s'.slots k).map Timer.mode = some mode

namespace Phase

omit [DecidableEq ι] in
theorem At.drops {p : Phase ι} {pc : Pc} {k : ℕ} {mode : Mode} (h : p.At pc)
    (hs : p.slot = some (k, mode)) : pc.drops = some k := by
  cases h <;> cases hs <;> rfl

omit [DecidableEq ι] in
theorem At.not_aside {p : Phase ι} {pc : Pc} (h : p.At pc) : ¬pc.Aside := by
  cases h <;> exact nofun

omit [DecidableEq ι] in
theorem active_of_slot {p : Phase ι} {k : ℕ} {mode : Mode} (h : p.slot = some (k, mode)) :
    p.active = true ∧ p.hooked = true := by
  cases p <;> first | exact ⟨rfl, rfl⟩ | cases h

omit [DecidableEq ι] in
theorem hooked_of_itimer {p : Phase ι} (h : p.itimer = true) : p.hooked = true := by
  cases p <;> first | rfl | cases h

omit [DecidableEq ι] in
theorem armed_of_not_hooked {p : Phase ι} (h : p.hooked = false) {armed : List ℕ}
    {slots : ℕ → Option Timer} {pcs : ι → Pc} (ha : p.Accounts armed slots pcs) : armed = [] := by
  cases p <;> first | exact ha | cases h

end Phase

namespace InPhase
variable {s : State ι} {p : Phase ι}

omit [DecidableEq ι] in
theorem handler (h : InPhase s p) (ha : s.itimer = true ∨ s.armed ≠ []) : s.action = .signalHandler := by
  refine h.action ?_
  rcases ha with hit | harmed
  · exact Phase.hooked_of_itimer (h.itimer.symm.trans hit)
  · by_contra hn
    exact harmed (Phase.armed_of_not_hooked (Bool.not_eq_true _ ▸ hn) h.accounts)

omit [DecidableEq ι] in
theorem built_of_timerStarted (h : InPhase s p) {t : ι} {mode : Mode} (hpc : s.pcs t = .timerStarted mode) :
    p = .built t mode := by
  obtain ⟨hown, hat⟩ := h.driver hpc nofun
  cases hat
  cases hown
  rfl

omit [DecidableEq ι] in
theorem oneTimer (h : InPhase s p) (q r : Place ι) (hq : HasTimer s q) (hr : HasTimer s r) : q = r := by
  cases q with
  | slot k =>
    obtain ⟨timer, hk⟩ := Option.isSome_iff_exists.mp hq
    have hslot := h.slot_only k timer hk
    cases r with
    | slot k' =>
      obtain ⟨timer', hk'⟩ := Option.isSome_iff_exists.mp hr
      have hkk : k = k' :=
        congrArg Prod.fst (Option.some.inj (hslot.symm.trans (h.slot_only k' timer' hk')))
      rw [hkk]
    | thread t =>
      obtain ⟨mode, hpc⟩ := hr
      rw [h.built_of_timerStarted hpc] at hslot
      cases hslot
  | thread t =>
    obtain ⟨mode, hpc⟩ := hq
    have hp := h.built_of_timerStarted hpc
    cases r with
    | slot k' =>
      obtain ⟨timer', hk'⟩ := Option.isSome_iff_exists.mp hr
      have hslot := h.slot_only k' timer' hk'
      rw [hp] at hslot
      cases hslot
    | thread t' =>
      obtain ⟨mode', hpc'⟩ := hr
      cases hp.symm.trans (h.built_of_timerStarted hpc')
      rfl

omit [DecidableEq ι] in
theorem slot_isSome (h : InPhase s p) {k : ℕ} {mode : Mode} (hs : p.slot = some (k, mode)) :
    HasTimer s (.slot k) := by
  obtain ⟨timer, hk, -⟩ := h.slot_some k mode hs
  exact Option.isSome_iff_exists.mpr ⟨timer, hk⟩

omit [DecidableEq ι] in
theorem active_iff (h : InPhase s p) :
    s.active = true ↔ (∃ q, HasTimer s q) ∨ TimerStarting s := by
  rw [h.active]
  constructor
  · intro ha
    cases hp : p with
    | acquiring t =>
      have hat := (h.held t).1 (by rw [hp]; rfl)
      rw [hp] at hat
      refine .inr ⟨t, ?_⟩
      generalize s.pcs t = pc at hat
      cases hat with
      | @acquired _ mode => exact .inl ⟨mode, rfl⟩
      | abandoned => exact .inr rfl
    | built t mode =>
      have hat := (h.held t).1 (by rw [hp]; rfl)
      rw [hp] at hat
      refine .inl ⟨.thread t, mode, ?_⟩
      generalize s.pcs t = pc at hat
      cases hat
      rfl
    | session k mode => exact .inl ⟨_, h.slot_isSome (show p.slot = some (k, mode) by rw [hp]; rfl)⟩
    | dropping t k mode => exact .inl ⟨_, h.slot_isSome (show p.slot = some (k, mode) by rw [hp]; rfl)⟩
    | deleting t k mode ids => exact .inl ⟨_, h.slot_isSome (show p.slot = some (k, mode) by rw [hp]; rfl)⟩
    | disarmed t k mode => exact .inl ⟨_, h.slot_isSome (show p.slot = some (k, mode) by rw [hp]; rfl)⟩
    | _ =>
      rw [hp] at ha
      cases ha
  · rintro (⟨q, hq⟩ | ⟨t, ⟨mode, hpc⟩ | hpc⟩)
    · cases q with
      | slot k =>
        obtain ⟨timer, hk⟩ := Option.isSome_iff_exists.mp hq
        exact (Phase.active_of_slot (h.slot_only k timer hk)).1
      | thread t =>
        obtain ⟨mode, hpc⟩ := hq
        rw [h.built_of_timerStarted hpc]
        rfl
    · obtain ⟨-, hat⟩ := h.driver hpc nofun
      cases hat
      rfl
    · obtain ⟨-, hat⟩ := h.driver hpc nofun
      cases hat
      rfl

omit [DecidableEq ι] in
theorem dropped (h : InPhase s p) (k : ℕ) (hk : (s.slots k).isSome = true) :
    k ∈ s.sessions ∨ ∃ t, (s.pcs t).drops = some k := by
  obtain ⟨timer, htimer⟩ := Option.isSome_iff_exists.mp hk
  have hslot := h.slot_only k timer htimer
  cases ho : p.owner with
  | some t => exact .inr ⟨t, ((h.held t).1 ho).drops hslot⟩
  | none =>
    cases p with
    | session k' mode =>
      cases hslot
      rw [h.live]
      exact .inl List.mem_cons_self
    | free => cases hslot
    | _ => cases ho

omit [DecidableEq ι] in
theorem eq_free_of_quiet (h : InPhase s p) (hq : Quiet s) : p = .free := by
  have hown : p.owner = none := by
    cases ho : p.owner with
    | none => rfl
    | some t => exact (((h.held t).1 ho).not_aside (hq.2 t)).elim
  cases p with
  | free => rfl
  | session k mode =>
    have hlive := h.live
    rw [hq.1] at hlive
    cases hlive
  | _ => cases hown

omit [DecidableEq ι] in
theorem clean (h : InPhase s p) (hq : Quiet s) :
    s.itimer = false ∧ s.armed = [] ∧ s.active = false ∧ sigprof ∉ s.handledSignals := by
  obtain rfl := h.eq_free_of_quiet hq
  exact ⟨h.itimer, h.accounts, h.active, fun hm => nomatch h.listed.mp hm⟩

/- From a clean state a start in which nothing fails succeeds, in either mode. -/
theorem startable (h : InPhase s p) (hl : Mutexes s.locks s.pcs Pc.holds) (hq : Quiet s) (t : ι)
    (mode : Mode) (hpc : s.pcs t = .idle) :
    ∃ s', Relation.ReflTransGen Run s s' ∧
      ∃ k ∈ s'.sessions, (s'.slots k).map Timer.mode = some mode := by
  obtain ⟨-, -, hactive, hlisted⟩ := h.clean hq
  have hfree : s.locks .handledSignals = none := hl.free fun j hj => (hq.2 j).not_handledSignals hj
  have run : Relation.ReflTransGen Run s s := .refl
  have run := run.tail ⟨t, .start hpc mode⟩
  have run := run.tail ⟨t, .installLock (Function.update_self ..) hfree⟩
  have run := run.tail ⟨t, .sigaction (Function.update_self ..) hlisted⟩
  have run := run.tail ⟨t, .installPush (Function.update_self ..)⟩
  have run := run.tail ⟨t, .acquire (Function.update_self ..) hactive⟩
  -- in either mode the timer starts, and the session takes it over
  obtain ⟨s₁, run, hpc₁⟩ : ∃ s₁, Relation.ReflTransGen Run s s₁ ∧ s₁.pcs t = .timerStarted mode := by
    cases mode with
    | iTimer => exact ⟨_, run.tail ⟨t, .setitimer (Function.update_self ..)⟩, Function.update_self ..⟩
    | cTimer => exact ⟨_, run.tail ⟨t, .noThreads (Function.update_self ..)⟩, Function.update_self ..⟩
  refine ⟨_, run.tail ⟨t, .sessionStarts hpc₁⟩, s₁.nextSession, List.mem_cons_self, ?_⟩
  show Option.map Timer.mode (Function.update s₁.slots s₁.nextSession _ s₁.nextSession) = _
  rw [Function.update_self]
  rfl

end InPhase

/- `thread_created` after the drop finds no timer and gives the mutex back. -/
theorem createdLocked_none {t : ι} {s s' : State ι} {k tid : ℕ} (hpc : s.pcs t = .createdLocked k tid)
    (hk : s.slots k = none) (hs : Step t s s') :
    s' = { s with pcs := Function.update s.pcs t (.hookUnlock k) } := by
  cases hs
  case createdNothing h nothing =>
    cases hpc.symm.trans h
    rfl
  all_goals simp_all

/-- Whatever the order of starts, hooks and drops, and wherever they fail. -/
theorem timers_guarded {s : State ι} (h : Reachable Initial Run s) : Guarded s := by
  have hl := reachable_locks h
  obtain ⟨p, hp⟩ := reachable_inv h
  refine ⟨hp.handler, hp.oneTimer, hp.active_iff, fun honce => ?_, hp.dropped,
    fun t k tid s' hpc hk hs => createdLocked_none hpc hk hs, hp.clean, hp.startable hl⟩
  rcases hp.once honce with ha | ha <;> rw [ha] <;> exact nofun

/- A `CTimer` session with a timer for one thread is dropped while a hook of another
thread waits for the mutex; the hook then arms nothing. -/
theorem timers_guarded_dropped : ∃ s : State (Fin 2), Reachable Initial Run s ∧ Quiet s ∧
    s.installedOnce = true ∧ s.action = .ign ∧ Guarded s := by
  have h : Reachable Initial Run (⟨[], .dfl, false, false, false, [], 0, fun _ => none, fun _ => none, 0,
    [], fun _ => .idle⟩ : State (Fin 2)) := .init ⟨_, rfl⟩
  have h := h.step ⟨0, .start rfl .cTimer⟩
  have h := h.step ⟨0, .installLock rfl rfl⟩
  have h := h.step ⟨0, .sigaction rfl nofun⟩
  have h := h.step ⟨0, .installPush rfl⟩
  have h := h.step ⟨0, .acquire rfl rfl⟩
  have h := h.step ⟨0, .noThreads rfl⟩
  have h := h.step ⟨0, .sessionStarts rfl⟩
  have h := h.step ⟨0, .threadCreated (k := 0) rfl (Nat.zero_lt_one) 7⟩
  have h := h.step ⟨0, .createdLock rfl rfl⟩
  have h := h.step ⟨0, .timerCreate rfl rfl ⟨rfl, rfl⟩⟩
  have h := h.step ⟨0, .settime rfl⟩
  have h := h.step ⟨0, .insertTimer rfl rfl⟩
  have h := h.step ⟨0, .hookUnlock rfl⟩
  have h := h.step ⟨1, .threadCreated (k := 0) rfl (Nat.zero_lt_one) 8⟩
  have h := h.step ⟨0, .dropSession (k := 0) rfl List.mem_cons_self⟩
  have h := h.step ⟨0, .dropLock rfl rfl⟩
  have h := h.step ⟨0, .dropTimer rfl rfl (List.Perm.refl [0])⟩
  have h := h.step ⟨0, .deleteThread rfl⟩
  have h := h.step ⟨0, .disarm rfl⟩
  have h := h.step ⟨0, .dropActive rfl⟩
  have h := h.step ⟨0, .dropUnlock rfl⟩
  have h := h.step ⟨1, .createdLock rfl rfl⟩
  have h := h.step ⟨1, .createdNothing rfl nofun⟩
  have h := h.step ⟨0, .handlerDropLock rfl rfl⟩
  have h := h.step ⟨0, .ignore rfl⟩
  have h := h.step ⟨0, .forget rfl⟩
  exact ⟨_, h, ⟨rfl, fun | 0 => .idle | 1 => .hookUnlock⟩, rfl, rfl, timers_guarded h⟩

end Pyroscope.Signal.Timers
