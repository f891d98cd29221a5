import Pyroscope.Backend.Ruleset
import Pyroscope.Lib.Call

/-!
# Tags for the length of a block (python/pyroscope/__init__.py, lib.rs, ffikit.rs)

`tag_wrapper` adds the tags of a dict to the calling thread one native call at a time, and
removes them when its block is left. The ruleset is a plain set. A thread's calls may be
interleaved with those of other threads.
-/

namespace Pyroscope.Python
open Pyroscope.Lib Pyroscope.Backend

inductive PyroscopeError where
  | agentNotRunning
  | poisoned
  deriving DecidableEq, Repr

/-- `State` of ffikit.rs; a running agent has its ruleset. -/
inductive AgentState where
  | idle
  | busy
  | running (ruleset : ThreadTagsSet)

namespace AgentState

/-- `if let State::Running(agent)`, and what `PyroscopeAgent` makes of the ruleset's answer -/
def onRuleset (f : ThreadTagsSet → Except Poisoned Bool × ThreadTagsSet) :
    AgentState → Except PyroscopeError Unit × AgentState
  | .running ruleset =>
    match f ruleset with
    | (.ok _, ruleset) => (.ok (), .running ruleset)
    | (.error .poisoned, ruleset) => (.error .poisoned, .running ruleset)
  | .idle => (.error .agentNotRunning, .idle)
  | .busy => (.error .agentNotRunning, .busy)

def addThreadTag (tid : ThreadId) (tag : Tag) : AgentState → Except PyroscopeError Unit × AgentState :=
  onRuleset fun ruleset => ruleset.add ⟨tid, tag⟩

def removeThreadTag (tid : ThreadId) (tag : Tag) : AgentState → Except PyroscopeError Unit × AgentState :=
  onRuleset fun ruleset => ruleset.remove ⟨tid, tag⟩

def perform (op : Operation) (agent : AgentState) : Except PyroscopeError Unit × AgentState :=
  if op.added then agent.addThreadTag op.tid op.tag else agent.removeThreadTag op.tid op.tag

def threadTags (ord : IterOrder (ThreadTag × Unit)) (tid : ThreadId) : AgentState → List Tag
  | .running ruleset =>
    let s : StackTrace := ⟨none, some tid, none, [], .default⟩
    (s.addTagRules ord ruleset).metadata.tags.toList
  | _ => []

end AgentState

/-! ### The calls of one Python thread -/

/-- The agent after one call of some thread. `opened` are the `tag_wrapper` blocks that the
thread is in. -/
structure Moment where
  opened : List (List Tag)
  agent : AgentState

/-- `others` is what the other threads call before each of the calls of this one. -/
structure Thread where
  agent : AgentState
  others : List (List Operation)
  opened : List (List Tag)
  log : List Moment

namespace Thread

def see (s : Thread) : Thread := { s with log := s.log ++ [⟨s.opened, s.agent⟩] }

def step (s : Thread) (op : Operation) : Thread := { s with agent := (s.agent.perform op).2 }.see

def yield (s : Thread) : Thread :=
  match s.others with
  | [] => s
  | ops :: others => ops.foldl step { s with others }

/-- The call of the native function, after whatever the others do first. -/
def native (s : Thread) (op : Operation) : Thread := s.yield.step op

end Thread

section Wrapper
variable {Obj E : Type} (extract : Obj → Except E String) (tid : ThreadId)

/-- `add_thread_tag` and `remove_thread_tag` of lib.rs: both arguments are extracted first;
the result says whether ffikit's function succeeded. -/
def libCall (added : Bool) (key value : Obj) : Call Thread E Bool := do
  let key ← Call.returned (extract key)
  let value ← Call.returned (extract value)
  fun s => (.ok ((s.yield.agent.perform ⟨tid, ⟨key, value⟩, added⟩).1.isOk), s.native ⟨tid, ⟨key, value⟩, added⟩)

def addThreadTag (key value : Obj) : Call Thread E Bool := libCall extract tid true key value

def removeThreadTag (key value : Obj) : Call Thread E Bool := libCall extract tid false key value

/-- The first loop of `tag_wrapper`. -/
def enter (items : List (Obj × Obj)) : Call Thread E Unit :=
  Call.forEach (fun item => do
    let _ ← addThreadTag extract tid item.1 item.2
    pure ()) items

/-- The second one. -/
def leave (items : List (Obj × Obj)) : Call Thread E Unit :=
  Call.forEach (fun item => do
    let _ ← removeThreadTag extract tid item.1 item.2
    pure ()) items

def tagWrapper (items : List (Obj × Obj)) (body : Call Thread E Unit) : Call Thread E Unit := do
  enter extract tid items
  Call.tryFinally body (leave extract tid items)

end Wrapper

/-! ### Blocks -/

/-- What stands inside a block; the tags of each `tag_wrapper` are the items of its dict. -/
inductive Body (E : Type) where
  | pass
  | raise (err : E)
  | seq (first second : Body E)
  | tagWrapper (tags : List Tag) (body : Body E)
  | tryExcept (body : Body E) (catches : E → Bool) (handler : Body E)

def Thread.enterBlock (tags : List Tag) (s : Thread) : Thread := { s with opened := tags :: s.opened }.see

def Thread.leaveBlock (opened : List (List Tag)) (s : Thread) : Thread := { s.see with opened }

/-- The block is open while `c` runs. -/
def within {E : Type} (tags : List Tag) (c : Call Thread E Unit) : Call Thread E Unit := fun s =>
  let r := c (s.enterBlock tags)
  (r.1, r.2.leaveBlock s.opened)

def items (tags : List Tag) : List (String × String) := tags.map fun tag => (tag.key, tag.value)

namespace Body
variable {E : Type}

def run (tid : ThreadId) : Body E → Call Thread E Unit
  | pass => pure ()
  | raise err => Call.fail err
  | seq first second => do
    first.run tid
    second.run tid
  | tagWrapper tags body => Python.tagWrapper Except.ok tid (items tags) (within tags (body.run tid))
  | tryExcept body catches handler => fun s =>
    match body.run tid s with
    | (.ok (), s) => (.ok (), s)
    | (.error err, s) => if catches err then handler.run tid s else (.error err, s)

def outcome : Body E → Except E Unit
  | pass => .ok ()
  | raise err => .error err
  | seq first second =>
    match first.outcome with
    | .ok () => second.outcome
    | .error err => .error err
  | tagWrapper _ body => body.outcome
  | tryExcept body catches handler =>
    match body.outcome with
    | .ok () => .ok ()
    | .error err => if catches err then handler.outcome else .error err

/-- Every `tag_wrapper` that is entered brings new tags only. -/
def Fresh : Body E → Set Tag → Prop
  | pass, _ => True
  | raise _, _ => True
  | seq first second, present => first.Fresh present ∧ (first.outcome = .ok () → second.Fresh present)
  | tagWrapper tags body, present =>
    (∀ tag ∈ tags, tag ∉ present) ∧ body.Fresh (present ∪ {tag | tag ∈ tags})
  | tryExcept body catches handler, present =>
    body.Fresh present ∧ ∀ err, body.outcome = .error err → catches err = true → handler.Fresh present

end Body

/-! ### The agent's tags -/

namespace AgentState

/-- Running, with a ruleset whose lock is not poisoned. -/
def Healthy (agent : AgentState) : Prop := ∃ ruleset, agent = .running ruleset ∧ ruleset.poisoned = false

def attached (tid : ThreadId) : AgentState → Set Tag
  | .running ruleset => {tag | ruleset.Holds ⟨tid, tag⟩}
  | _ => ∅

theorem mem_threadTags {agent : AgentState} (h : agent.Healthy) (ord : IterOrder (ThreadTag × Unit))
    (tid : ThreadId) (tag : Tag) : tag ∈ agent.threadTags ord tid ↔ tag ∈ agent.attached tid := by
  obtain ⟨ruleset, rfl, hopen⟩ := h
  rw [threadTags, StackTrace.mem_addTagRules ord _ hopen]
  constructor
  · rintro (hm | ⟨t, ht, hholds⟩)
    · cases hm
    · cases ht
      exact hholds
  · intro hholds
    exact .inr ⟨tid, rfl, hholds⟩

/- The tags come sorted, so that the set says what they are. -/
theorem threadTags_congr {agent agent' : AgentState} {tid : ThreadId} (h : agent.Healthy) (h' : agent'.Healthy)
    (ord ord' : IterOrder (ThreadTag × Unit)) (hsame : agent.attached tid = agent'.attached tid) :
    agent.threadTags ord tid = agent'.threadTags ord' tid := by
  have hset : ∀ (agent : AgentState) ord, ∃ set : BTreeSet Tag, agent.threadTags ord tid = set.toList := by
    intro agent ord
    cases agent with
    | running ruleset => exact ⟨_, rfl⟩
    | _ => exact ⟨BTreeSet.empty, rfl⟩
  obtain ⟨set, hs⟩ := hset agent ord
  obtain ⟨set', hs'⟩ := hset agent' ord'
  have he : set = set' := BTreeSet.eq_of_mem_iff fun tag => by
    rw [← hs, ← hs', mem_threadTags h, mem_threadTags h', hsame]
  rw [hs, hs', he]

theorem perform_running {ruleset : ThreadTagsSet} (hopen : ruleset.poisoned = false) (op : Operation) :
    (running ruleset).perform op = (.ok (), .running { ruleset with
      rules := if op.added then ruleset.rules.insert ⟨op.tid, op.tag⟩ () else ruleset.rules.erase ⟨op.tid, op.tag⟩ }) := by
  obtain ⟨rules, poisoned⟩ := ruleset
  obtain rfl : poisoned = false := hopen
  obtain ⟨t, tag, added⟩ := op
  cases added with
  | true => rfl
  | false => rfl

theorem perform_healthy {agent : AgentState} (h : agent.Healthy) (op : Operation) :
    (agent.perform op).1 = .ok () ∧ (agent.perform op).2.Healthy := by
  obtain ⟨ruleset, rfl, hopen⟩ := h
  rw [perform_running hopen]
  exact ⟨rfl, _, rfl, hopen⟩

theorem mem_perform {agent : AgentState} (h : agent.Healthy) (op : Operation) (tid : ThreadId) (tag : Tag) :
    tag ∈ (agent.perform op).2.attached tid ↔
      if op.tid = tid ∧ op.tag = tag then op.added = true else tag ∈ agent.attached tid := by
  obtain ⟨ruleset, rfl, hopen⟩ := h
  obtain ⟨t, tag', added⟩ := op
  have hsame : (⟨tid, tag⟩ : ThreadTag) = ⟨t, tag'⟩ ↔ t = tid ∧ tag' = tag := by
    rw [ThreadTag.mk.injEq]
    exact and_congr eq_comm eq_comm
  rw [perform_running hopen]
  cases added with
  | true =>
    refine (ThreadTagsSet.holds_insert ruleset ⟨t, tag'⟩ ⟨tid, tag⟩).trans ?_
    rw [hsame]
    split
    · next he => exact iff_of_true (.inl he) rfl
    · next hne => exact or_iff_right hne
  | false =>
    refine (ThreadTagsSet.holds_erase ruleset ⟨t, tag'⟩ ⟨tid, tag⟩).trans ?_
    rw [Ne, hsame]
    split
    · next he => exact iff_of_false (fun h => h.1 he) Bool.false_ne_true
    · next hne => exact and_iff_right hne

end AgentState

/-! ### One call after the other -/

namespace Thread

def tags (tid : ThreadId) (s : Thread) : Set Tag := s.agent.attached tid

/-- The other threads have other ids. -/
structure Ready (tid : ThreadId) (s : Thread) : Prop where
  healthy : s.agent.Healthy
  others : ∀ ops ∈ s.others, ∀ op ∈ ops, op.tid ≠ tid
  log : ∀ m ∈ s.log, m.agent.Healthy

/-- The tags of all blocks that are open are attached. -/
def Covered (opened : List (List Tag)) (present : Set Tag) : Prop :=
  ∀ tags ∈ opened, ∀ tag ∈ tags, tag ∈ present

def AllCovered (tid : ThreadId) (s : Thread) : Prop := ∀ m ∈ s.log, Covered m.opened (m.agent.attached tid)

/-- `s'` comes after `s`, with the same blocks open. -/
structure Later (tid : ThreadId) (s s' : Thread) : Prop where
  ready : Ready tid s'
  opened : s'.opened = s.opened
  log : s.log <+: s'.log

variable {tid : ThreadId} {s s' s'' : Thread}

theorem Later.refl (h : Ready tid s) : Later tid s s := ⟨h, rfl, List.prefix_refl _⟩

theorem Later.trans (h : Later tid s s') (h' : Later tid s' s'') : Later tid s s'' :=
  ⟨h'.ready, h'.opened.trans h.opened, h.log.trans h'.log⟩

theorem allCovered_see (s : Thread) :
    AllCovered tid s.see ↔ AllCovered tid s ∧ Covered s.opened (s.tags tid) := by
  constructor
  · intro h
    exact ⟨fun m hm => h m (List.mem_append_left _ hm), h _ (List.mem_append_right _ (List.mem_singleton_self _))⟩
  · rintro ⟨hlog, hnow⟩ m hm
    rcases List.mem_append.mp hm with hm | hm
    · exact hlog m hm
    · rw [List.mem_singleton.mp hm]
      exact hnow

theorem Ready.see (h : Ready tid s) : Ready tid s.see := by
  refine ⟨h.healthy, h.others, fun m hm => ?_⟩
  rcases List.mem_append.mp hm with hm | hm
  · exact h.log m hm
  · rw [List.mem_singleton.mp hm]
    exact h.healthy

theorem step_later (h : Ready tid s) (op : Operation) : Later tid s (s.step op) := by
  have hperformed : Ready tid { s with agent := (s.agent.perform op).2 } :=
    ⟨(AgentState.perform_healthy h.healthy op).2, h.others, h.log⟩
  exact ⟨hperformed.see, rfl, List.prefix_append _ _⟩

theorem step_allCovered (h : AllCovered tid s) {op : Operation} (hc : Covered s.opened ((s.step op).tags tid)) :
    AllCovered tid (s.step op) := (allCovered_see _).mpr ⟨h, hc⟩

theorem step_tags_other (h : Ready tid s) {op : Operation} (hop : op.tid ≠ tid) :
    (s.step op).tags tid = s.tags tid := by
  ext tag
  refine (AgentState.mem_perform h.healthy op tid tag).trans ?_
  rw [if_neg fun he => hop he.1]
  rfl

theorem steps_other (h : Ready tid s) {ops : List Operation} (hops : ∀ op ∈ ops, op.tid ≠ tid) :
    Later tid s (ops.foldl step s) ∧ (ops.foldl step s).tags tid = s.tags tid ∧
      (AllCovered tid s → Covered s.opened (s.tags tid) → AllCovered tid (ops.foldl step s)) := by
  induction ops generalizing s with
  | nil => exact ⟨.refl h, rfl, fun hall _ => hall⟩
  | cons op ops ih =>
    have hstep := step_later h op
    have htags := step_tags_other h (hops op (List.mem_cons_self ..))
    obtain ⟨hlater, hkept, hcovered⟩ := ih hstep.ready fun op hop => hops op (List.mem_cons_of_mem _ hop)
    refine ⟨hstep.trans hlater, hkept.trans htags, fun hall hc => hcovered ?_ ?_⟩
    · exact step_allCovered hall (by rw [htags]; exact hc)
    · rw [htags]
      exact hc

theorem yield_other (h : Ready tid s) : Later tid s s.yield ∧ s.yield.tags tid = s.tags tid ∧
    (AllCovered tid s → Covered s.opened (s.tags tid) → AllCovered tid s.yield) := by
  unfold yield
  split
  · exact ⟨.refl h, rfl, fun hall _ => hall⟩
  · next ops others hothers =>
    have hready : Ready tid { s with others } :=
      ⟨h.healthy, fun ops hm => h.others ops (by rw [hothers]; exact List.mem_cons_of_mem _ hm), h.log⟩
    obtain ⟨hlater, htags, hcovered⟩ := steps_other hready (h.others ops (by rw [hothers]; exact List.mem_cons_self ..))
    exact ⟨⟨hlater.ready, hlater.opened, hlater.log⟩, htags, hcovered⟩

theorem native_later (h : Ready tid s) (op : Operation) : Later tid s (s.native op) :=
  (yield_other h).1.trans (step_later (yield_other h).1.ready op)

theorem mem_native (h : Ready tid s) (tag' tag : Tag) (added : Bool) :
    tag ∈ (s.native ⟨tid, tag', added⟩).tags tid ↔ if tag' = tag then added = true else tag ∈ s.tags tid := by
  obtain ⟨hlater, htags, -⟩ := yield_other h
  refine (AgentState.mem_perform hlater.ready.healthy ⟨tid, tag', added⟩ tid tag).trans ?_
  simp only [true_and]
  rw [← htags]
  rfl

def each (tid : ThreadId) (added : Bool) (tags : List Tag) (s : Thread) : Thread :=
  tags.foldl (fun s tag => s.native ⟨tid, tag, added⟩) s

theorem each_later (h : Ready tid s) (added : Bool) (tags : List Tag) : Later tid s (s.each tid added tags) := by
  induction tags generalizing s with
  | nil => exact .refl h
  | cons tag tags ih => exact (native_later h _).trans (ih (native_later h _).ready)

theorem mem_each (h : Ready tid s) (added : Bool) (tags : List Tag) (tag : Tag) :
    tag ∈ (s.each tid added tags).tags tid ↔ if tag ∈ tags then added = true else tag ∈ s.tags tid := by
  induction tags generalizing s with
  | nil => rw [if_neg List.not_mem_nil, each, List.foldl_nil]
  | cons tag' tags ih =>
    refine (ih (native_later h ⟨tid, tag', added⟩).ready).trans ?_
    rw [mem_native h]
    by_cases hmem : tag ∈ tags
    · rw [if_pos hmem, if_pos (List.mem_cons_of_mem _ hmem)]
    · rw [if_neg hmem]
      by_cases he : tag' = tag
      · rw [if_pos he, if_pos (List.mem_cons.mpr (.inl he.symm))]
      · rw [if_neg he, if_neg fun h => (List.mem_cons.mp h).elim (fun he' => he he'.symm) hmem]

end Thread

/-! ### Blocks, one inside the other -/

namespace Body
variable {E : Type} {tid : ThreadId} {s s' : Thread}
open Thread

/-- The state in which the block of a `tag_wrapper` starts. -/
def inside (tid : ThreadId) (tags : List Tag) (s : Thread) : Thread := (s.each tid true tags).enterBlock tags

end Body

/-- A running agent, after what all its threads have called so far. -/
def replay (history : List Operation) : AgentState :=
  history.foldl (fun agent op => (agent.perform op).2) (.running .new)

end Pyroscope.Python
