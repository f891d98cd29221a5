import Pyroscope.Backend.Types
import Pyroscope.Lib.Transition
import Pyroscope.Lib.Lock

/-!
# Thread tags (backend/ruleset.rs)

All threads share one set of (thread, tag) rules behind a mutex. A thread adds and
removes rules of its own thread id; a sampler takes the mutex and visits the set rule by
rule. Each access under the mutex is a step of its own.
-/

namespace Pyroscope.Backend
open Pyroscope.Lib

structure ThreadTag where
  tid : ThreadId
  tag : Tag
  deriving DecidableEq, Repr

/-- `Arc<Mutex<HashSet<ThreadTag>>>` -/
structure ThreadTagsSet where
  rules : HashMap ThreadTag Unit
  poisoned : Bool

/-- `rules.lock()?` fails. -/
inductive Poisoned where
  | poisoned
  deriving DecidableEq, Repr

namespace ThreadTagsSet

def new : ThreadTagsSet := ⟨HashMap.empty, false⟩

def Holds (s : ThreadTagsSet) (rule : ThreadTag) : Prop := s.rules.get rule = some ()

instance (s : ThreadTagsSet) (rule : ThreadTag) : Decidable (s.Holds rule) :=
  inferInstanceAs (Decidable (_ = _))

/-- `insert` says whether the rule is new. -/
def add (s : ThreadTagsSet) (rule : ThreadTag) : Except Poisoned Bool × ThreadTagsSet :=
  if s.poisoned then (.error .poisoned, s)
  else (.ok (decide (¬s.Holds rule)), { s with rules := s.rules.insert rule () })

/-- `remove` says whether the rule was there. -/
def remove (s : ThreadTagsSet) (rule : ThreadTag) : Except Poisoned Bool × ThreadTagsSet :=
  if s.poisoned then (.error .poisoned, s)
  else (.ok (decide (s.Holds rule)), { s with rules := s.rules.erase rule })

end ThreadTagsSet

def addRule (threadId : Option ThreadId) (metadata : Metadata) (rule : ThreadTag × Unit) :
    Metadata :=
  match threadId with
  | some stackThreadId => if rule.1.tid = stackThreadId then metadata.addTag rule.1.tag else metadata
  | none => metadata

def StackTrace.addTagRules (ord : IterOrder (ThreadTag × Unit)) (trace : StackTrace)
    (other : ThreadTagsSet) : StackTrace :=
  let metadata :=
    if other.poisoned then trace.metadata
    else (ord.visit other.rules.toList).foldl (addRule trace.threadId) trace.metadata
  { trace with metadata := metadata }

/-! ### What one application adds -/

theorem ThreadTagsSet.holds_insert (s : ThreadTagsSet) (rule rule' : ThreadTag) :
    ThreadTagsSet.Holds { s with rules := s.rules.insert rule () } rule' ↔
      rule' = rule ∨ s.Holds rule' := by
  by_cases he : rule' = rule
  · rw [he]
    exact ⟨fun _ => Or.inl rfl, fun _ => HashMap.get_insert _ _ _⟩
  · have hget : (s.rules.insert rule ()).get rule' = s.rules.get rule' :=
      HashMap.get_insert_ne _ _ he
    rw [Holds, hget]
    exact ⟨Or.inr, fun h => h.resolve_left he⟩

theorem ThreadTagsSet.holds_erase (s : ThreadTagsSet) (rule rule' : ThreadTag) :
    ThreadTagsSet.Holds { s with rules := s.rules.erase rule } rule' ↔
      rule' ≠ rule ∧ s.Holds rule' := by
  by_cases he : rule' = rule
  · rw [he, Holds, HashMap.get_erase]
    exact ⟨nofun, fun h => (h.1 rfl).elim⟩
  · have hget : (s.rules.erase rule).get rule' = s.rules.get rule' := HashMap.get_erase_ne _ he
    rw [Holds, hget]
    exact ⟨fun h => ⟨he, h⟩, fun h => h.2⟩

theorem mem_addRule (threadId : Option ThreadId) (metadata : Metadata) (rule : ThreadTag × Unit)
    (tag : Tag) :
    tag ∈ (addRule threadId metadata rule).tags.toList ↔
      tag ∈ metadata.tags.toList ∨ threadId = some rule.1.tid ∧ rule.1.tag = tag := by
  cases threadId with
  | none => simp [addRule]
  | some t =>
    rw [addRule]
    split
    · rename_i he
      rw [Metadata.addTag, BTreeSet.mem_insert, he]
      constructor
      · rintro (rfl | hm)
        · exact Or.inr ⟨rfl, rfl⟩
        · exact Or.inl hm
      · rintro (hm | ⟨-, rfl⟩)
        · exact Or.inr hm
        · exact Or.inl rfl
    · rename_i hne
      exact ⟨Or.inl, fun h => h.resolve_right fun hr => hne (Option.some.inj hr.1).symm⟩

theorem mem_foldl_addRule (threadId : Option ThreadId) (rules : List (ThreadTag × Unit))
    (metadata : Metadata) (tag : Tag) :
    tag ∈ (rules.foldl (addRule threadId) metadata).tags.toList ↔
      tag ∈ metadata.tags.toList ∨
        ∃ rule ∈ rules, threadId = some rule.1.tid ∧ rule.1.tag = tag := by
  induction rules generalizing metadata with
  | nil => simp
  | cons rule rules ih =>
    rw [List.foldl_cons, ih, mem_addRule, or_assoc, List.exists_mem_cons_iff]

theorem StackTrace.mem_addTagRules (ord : IterOrder (ThreadTag × Unit)) (trace : StackTrace)
    {s : ThreadTagsSet} (hs : s.poisoned = false) (tag : Tag) :
    tag ∈ (trace.addTagRules ord s).metadata.tags.toList ↔
      tag ∈ trace.metadata.tags.toList ∨ ∃ t, trace.threadId = some t ∧ s.Holds ⟨t, tag⟩ := by
  have hmetadata : (trace.addTagRules ord s).metadata =
      (ord.visit s.rules.toList).foldl (addRule trace.threadId) trace.metadata := by
    rw [addTagRules, hs]
    rfl
  rw [hmetadata, mem_foldl_addRule]
  refine or_congr_right ⟨fun h => ?_, fun h => ?_⟩
  · obtain ⟨⟨⟨t, tag'⟩, u⟩, hm, ht, rfl⟩ := h
    rw [IterOrder.mem_visit, HashMap.mem_toList] at hm
    exact ⟨t, ht, hm⟩
  · obtain ⟨t, ht, hm⟩ := h
    exact ⟨(⟨t, tag⟩, ()), (IterOrder.mem_visit _ _ _).mpr ((HashMap.mem_toList _ _ _).mpr hm),
      ht, rfl⟩

/-! ### Threads -/

inductive Call where
  | add (tag : Tag)
  | remove (tag : Tag)
  | sample (trace : StackTrace)
  deriving DecidableEq

inductive Caller where
  | idle
  | locking (call : Call)
  | adding (tag : Tag)
  | removing (tag : Tag)
  /-- the iteration has visited `i` rules -/
  | visiting (trace : StackTrace) (metadata : Metadata) (ord : IterOrder (ThreadTag × Unit)) (i : ℕ)

/-- An `add` or a `remove` that has returned `Ok`. -/
structure Operation where
  tid : ThreadId
  tag : Tag
  added : Bool
  deriving DecidableEq, Repr

/-- A sample that has passed through `add_tag_rules`, and the operations before it. -/
structure Tagged where
  before : List Operation
  trace : StackTrace
  result : StackTrace

structure RulesState where
  set : ThreadTagsSet
  owner : Option ThreadId
  pcs : ThreadId → Caller
  history : List Operation
  tagged : List Tagged

def RulesState.goto (s : RulesState) (t : ThreadId) (pc : Caller) : RulesState :=
  { s with pcs := Function.update s.pcs t pc }

inductive RulesStep : RulesState → RulesState → Prop where
  | call {s} (t : ThreadId) (call : Call) (h : s.pcs t = .idle) :
    RulesStep s (s.goto t (.locking call))
  | lockAdd {s} (t : ThreadId) {tag} (h : s.pcs t = .locking (.add tag)) (free : s.owner = none) :
    RulesStep s { s.goto t (.adding tag) with owner := some t }
  | lockRemove {s} (t : ThreadId) {tag} (h : s.pcs t = .locking (.remove tag))
      (free : s.owner = none) :
    RulesStep s { s.goto t (.removing tag) with owner := some t }
  /-- the order in which the set is visited is not known -/
  | lockSample {s} (t : ThreadId) {trace} (ord : IterOrder (ThreadTag × Unit))
      (h : s.pcs t = .locking (.sample trace)) (free : s.owner = none)
      (ok : s.set.poisoned = false) :
    RulesStep s { s.goto t (.visiting trace trace.metadata ord 0) with owner := some t }
  /-- `if let Ok(rules)` fails -/
  | lockPoisoned {s} (t : ThreadId) {trace} (h : s.pcs t = .locking (.sample trace))
      (free : s.owner = none) (bad : s.set.poisoned = true) :
    RulesStep s { s.goto t .idle with tagged := s.tagged ++ [⟨s.history, trace, trace⟩] }
  | add {s} (t : ThreadId) {tag result set} (h : s.pcs t = .adding tag)
      (hadd : s.set.add ⟨t, tag⟩ = (result, set)) :
    RulesStep s { s.goto t .idle with
      set := set
      owner := none
      history := if result.isOk then s.history ++ [⟨t, tag, true⟩] else s.history }
  | remove {s} (t : ThreadId) {tag result set} (h : s.pcs t = .removing tag)
      (hremove : s.set.remove ⟨t, tag⟩ = (result, set)) :
    RulesStep s { s.goto t .idle with
      set := set
      owner := none
      history := if result.isOk then s.history ++ [⟨t, tag, false⟩] else s.history }
  | visit {s} (t : ThreadId) {trace metadata ord i rule}
      (h : s.pcs t = .visiting trace metadata ord i)
      (hrule : (ord.visit s.set.rules.toList)[i]? = some rule) :
    RulesStep s (s.goto t (.visiting trace (addRule trace.threadId metadata rule) ord (i + 1)))
  | finish {s} (t : ThreadId) {trace metadata ord i}
      (h : s.pcs t = .visiting trace metadata ord i)
      (hrule : (ord.visit s.set.rules.toList)[i]? = none) :
    RulesStep s { s.goto t .idle with
      owner := none
      tagged := s.tagged ++ [⟨s.history, trace, { trace with metadata := metadata }⟩] }

def RulesInitial (s : RulesState) : Prop :=
  s = ⟨ThreadTagsSet.new, none, fun _ => .idle, [], []⟩

/-! ### What the history says about a tag -/

def latest (history : List Operation) (t : ThreadId) (tag : Tag) : Option Bool :=
  (history.filter fun o => o.tid = t ∧ o.tag = tag).getLast?.map Operation.added

def own (history : List Operation) (t : ThreadId) : List Operation :=
  history.filter fun o => o.tid = t

theorem latest_own (history : List Operation) (t : ThreadId) (tag : Tag) :
    latest (own history t) t tag = latest history t tag := by
  rw [latest, own, List.filter_filter, latest]
  congr 3
  funext o
  rw [← Bool.decide_and, decide_eq_decide]
  exact ⟨fun h => h.1, fun h => ⟨h, h.1⟩⟩

theorem latest_append (history : List Operation) (o : Operation) (t : ThreadId) (tag : Tag) :
    latest (history ++ [o]) t tag =
      if o.tid = t ∧ o.tag = tag then some o.added else latest history t tag := by
  rw [latest, List.filter_append, List.filter_singleton]
  split
  · rename_i h
    rw [decide_eq_true h, cond_true, List.getLast?_concat, Option.map_some]
  · rename_i h
    rw [decide_eq_false h, cond_false, List.append_nil, latest]

structure Tagged.Exact (e : Tagged) : Prop where
  tags : ∀ tag, tag ∈ e.result.metadata.tags.toList ↔ tag ∈ e.trace.metadata.tags.toList ∨
    ∃ t, e.trace.threadId = some t ∧ latest e.before t tag = some true
  rest : e.result = { e.trace with metadata := e.result.metadata }

/-! ### The invariant -/

def Caller.inside : Caller → Prop
  | .adding _ => True
  | .removing _ => True
  | .visiting _ _ _ _ => True
  | _ => False

def Caller.outside (pc : Caller) : Prop := ¬pc.inside

/-- The rules visited so far have been added. -/
def Caller.Progress (set : ThreadTagsSet) : Caller → Prop
  | .visiting trace metadata ord i => metadata =
    ((ord.visit set.rules.toList).take i).foldl (addRule trace.threadId) trace.metadata
  | _ => True

structure RulesInv (s : RulesState) : Prop where
  healthy : s.set.poisoned = false
  rules : ∀ t tag, s.set.Holds ⟨t, tag⟩ ↔ latest s.history t tag = some true
  lock : Held s.owner s.pcs Caller.inside Caller.outside
  progress : ∀ t, (s.pcs t).Progress s.set
  tagged : ∀ e ∈ s.tagged, e.Exact

theorem Caller.outside.progress {pc : Caller} (h : pc.outside) (set : ThreadTagsSet) :
    pc.Progress set := by
  cases pc with
  | visiting trace metadata ord i => exact (h trivial).elim
  | _ => trivial

section Steps
variable {s : RulesState} {t : ThreadId}

theorem RulesInv.initial (h : RulesInitial s) : RulesInv s := by
  subst h
  refine ⟨rfl, fun t tag => ⟨nofun, nofun⟩, Held.nobody fun _ h => h, fun _ => trivial, ?_⟩
  intro e he
  cases he

/- A step of one thread that leaves the set alone. -/
theorem progress_goto {set : ThreadTagsSet} (h : ∀ t, (s.pcs t).Progress set) {pc : Caller}
    (hpc : pc.Progress set) : ∀ t', ((s.goto t pc).pcs t').Progress set :=
  (Function.forall_update_iff _ fun _ (pc : Caller) => pc.Progress set).mpr
    ⟨hpc, fun t' _ => h t'⟩

theorem RulesInv.owner (h : RulesInv s) {pc : Caller} (hpc : s.pcs t = pc) (hin : pc.inside) :
    s.owner = some t :=
  h.lock.owner_of_not_outside (by rw [hpc]; exact fun hout => hout hin)

/- Only the thread inside can be visiting. -/
theorem RulesInv.replaced (h : RulesInv s) (hown : s.owner = some t) (set : ThreadTagsSet) :
    ∀ t', ((s.goto t .idle).pcs t').Progress set := by
  refine (Function.forall_update_iff _ fun _ (pc : Caller) => pc.Progress set).mpr
    ⟨trivial, fun t' ht => ?_⟩
  have hout : (s.pcs t').outside := (h.lock t').2 fun ho => by
    rw [hown] at ho
    exact ht (Option.some.inj ho).symm
  exact hout.progress set

theorem RulesInv.unlocked (h : RulesInv s) (hown : s.owner = some t) :
    Held none (s.goto t .idle).pcs Caller.inside Caller.outside := by
  have hlock := h.lock
  rw [hown] at hlock
  exact hlock.drop fun hin => hin

theorem RulesInv.locked (h : RulesInv s) (free : s.owner = none) {pc : Caller} (hpc : pc.inside) :
    Held (some t) (s.goto t pc).pcs Caller.inside Caller.outside := by
  refine h.lock.hold (fun j hj => ?_) hpc
  rw [free] at hj
  cases hj

theorem RulesInv.stays (h : RulesInv s) (hown : s.owner = some t) {pc : Caller}
    (hpc : pc.inside) : Held s.owner (s.goto t pc).pcs Caller.inside Caller.outside := by
  have hlock : Held (some t) (s.goto t pc).pcs Caller.inside Caller.outside :=
    h.lock.hold (fun j hj => Option.some.inj (hj.symm.trans hown)) hpc
  rwa [← hown] at hlock

theorem ThreadTagsSet.add_healthy {set set' : ThreadTagsSet} {rule : ThreadTag}
    {result : Except Poisoned Bool} (hs : set.poisoned = false)
    (h : set.add rule = (result, set')) :
    result.isOk = true ∧ set' = { set with rules := set.rules.insert rule () } := by
  obtain ⟨rules, poisoned⟩ := set
  cases hs
  cases h
  exact ⟨rfl, rfl⟩

theorem ThreadTagsSet.remove_healthy {set set' : ThreadTagsSet} {rule : ThreadTag}
    {result : Except Poisoned Bool} (hs : set.poisoned = false)
    (h : set.remove rule = (result, set')) :
    result.isOk = true ∧ set' = { set with rules := set.rules.erase rule } := by
  obtain ⟨rules, poisoned⟩ := set
  cases hs
  cases h
  exact ⟨rfl, rfl⟩

/- The whole visit is the application of the set as it stands. -/
theorem RulesInv.finished (h : RulesInv s) {trace : StackTrace} {metadata : Metadata}
    {ord : IterOrder (ThreadTag × Unit)} {i : ℕ} (hpc : s.pcs t = .visiting trace metadata ord i)
    (hend : (ord.visit s.set.rules.toList)[i]? = none) :
    { trace with metadata := metadata } = trace.addTagRules ord s.set := by
  have hp := h.progress t
  rw [hpc] at hp
  have hmetadata : metadata =
      ((ord.visit s.set.rules.toList).take i).foldl (addRule trace.threadId) trace.metadata := hp
  rw [List.take_of_length_le (List.getElem?_eq_none_iff.mp hend)] at hmetadata
  rw [hmetadata, StackTrace.addTagRules, h.healthy]
  rfl

theorem RulesInv.exact (h : RulesInv s) (ord : IterOrder (ThreadTag × Unit))
    (trace : StackTrace) : Tagged.Exact ⟨s.history, trace, trace.addTagRules ord s.set⟩ := by
  refine ⟨fun tag => ?_, rfl⟩
  dsimp only
  rw [StackTrace.mem_addTagRules ord trace h.healthy]
  exact or_congr_right (exists_congr fun t => and_congr_right fun _ => h.rules t tag)

end Steps

theorem rulesStep_inv {s s' : RulesState} (h : RulesInv s) (hs : RulesStep s s') :
    RulesInv s' := by
  cases hs with
  | call t call hpc =>
    have hout : s.owner ≠ some t := fun ho => by
      have hin := (h.lock t).1 ho
      rw [hpc] at hin
      exact hin
    exact ⟨h.healthy, h.rules, h.lock.pass hout fun hin => hin,
      progress_goto h.progress trivial, h.tagged⟩
  | lockAdd t hpc free =>
    exact ⟨h.healthy, h.rules, h.locked free trivial, progress_goto h.progress trivial, h.tagged⟩
  | lockRemove t hpc free =>
    exact ⟨h.healthy, h.rules, h.locked free trivial, progress_goto h.progress trivial, h.tagged⟩
  | lockSample t ord hpc free ok =>
    exact ⟨h.healthy, h.rules, h.locked free trivial, progress_goto h.progress rfl, h.tagged⟩
  | lockPoisoned t hpc free bad =>
    rw [h.healthy] at bad
    cases bad
  | @add t tag result set hpc hadd =>
    have hown := h.owner hpc trivial
    obtain ⟨hok, rfl⟩ := ThreadTagsSet.add_healthy h.healthy hadd
    refine ⟨h.healthy, fun t' tag' => ?_, h.unlocked hown, h.replaced hown _, h.tagged⟩
    dsimp only
    rw [if_pos hok, latest_append, ThreadTagsSet.holds_insert, ThreadTag.mk.injEq, h.rules]
    split
    · rename_i he
      exact ⟨fun _ => rfl, fun _ => Or.inl ⟨he.1.symm, he.2.symm⟩⟩
    · rename_i hne
      exact ⟨fun h => h.resolve_left fun he => hne ⟨he.1.symm, he.2.symm⟩, Or.inr⟩
  | @remove t tag result set hpc hremove =>
    have hown := h.owner hpc trivial
    obtain ⟨hok, rfl⟩ := ThreadTagsSet.remove_healthy h.healthy hremove
    refine ⟨h.healthy, fun t' tag' => ?_, h.unlocked hown, h.replaced hown _, h.tagged⟩
    dsimp only
    rw [if_pos hok, latest_append, ThreadTagsSet.holds_erase, ne_eq, ThreadTag.mk.injEq, h.rules]
    split
    · rename_i he
      exact ⟨fun h => (h.1 ⟨he.1.symm, he.2.symm⟩).elim, nofun⟩
    · rename_i hne
      exact ⟨And.right, fun h => ⟨fun he => hne ⟨he.1.symm, he.2.symm⟩, h⟩⟩
  | @visit t trace metadata ord i rule hpc hrule =>
    have hown := h.owner hpc trivial
    have hp := h.progress t
    rw [hpc] at hp
    refine ⟨h.healthy, h.rules, ?_, progress_goto h.progress ?_, h.tagged⟩
    · exact h.stays hown trivial
    · show addRule trace.threadId metadata rule = List.foldl _ _ _
      rw [List.take_add_one, hrule, Option.toList_some, List.foldl_append, ← hp]
      rfl
  | @finish t trace metadata ord i hpc hend =>
    have hown := h.owner hpc trivial
    refine ⟨h.healthy, h.rules, h.unlocked hown, h.replaced hown _, fun e he => ?_⟩
    rcases List.mem_append.mp he with hold | hnew
    · exact h.tagged e hold
    · rw [List.mem_singleton.mp hnew, h.finished hpc hend]
      exact h.exact ord trace

theorem rules_reachable_inv {s : RulesState} (h : Reachable RulesInitial RulesStep s) :
    RulesInv s :=
  h.invariant (fun _ hs => RulesInv.initial hs) fun _ _ hi hs => rulesStep_inv hi hs

/-! ### Isolation -/

theorem Tagged.Exact.untagged {e : Tagged} (h : e.Exact) (hnone : e.trace.threadId = none) :
    e.result = e.trace := by
  have hmetadata : e.result.metadata.tags = e.trace.metadata.tags := by
    refine BTreeSet.eq_of_mem_iff fun tag => ?_
    rw [h.tags]
    refine ⟨fun ht => ht.resolve_right fun hr => ?_, Or.inl⟩
    obtain ⟨t, ht, -⟩ := hr
    rw [hnone] at ht
    cases ht
  have hmeta : e.result.metadata = e.trace.metadata := (Metadata.mk.injEq _ _).mpr hmetadata
  rw [h.rest, hmeta]

/- Two samples that differ in other threads' operations, or of which the second one has
been through the first already. -/
theorem Tagged.Exact.agree {e e' : Tagged} (h : e.Exact) (h' : e'.Exact)
    (htrace : e'.trace = e.trace ∨ e'.trace = e.result)
    (hown : ∀ t, e.trace.threadId = some t → own e'.before t = own e.before t) :
    e'.result = e.result := by
  have hlatest : ∀ tag, (∃ t, e.trace.threadId = some t ∧ latest e'.before t tag = some true) ↔
      ∃ t, e.trace.threadId = some t ∧ latest e.before t tag = some true := by
    intro tag
    refine exists_congr fun t => and_congr_right fun ht => ?_
    rw [← latest_own e'.before, hown t ht, latest_own]
  have hthread : e'.trace.threadId = e.trace.threadId := by
    rcases htrace with he | he
    · rw [he]
    · rw [he, h.rest]
  have hmetadata : e'.result.metadata.tags = e.result.metadata.tags := by
    refine BTreeSet.eq_of_mem_iff fun tag => ?_
    rw [h'.tags, hthread, hlatest, h.tags]
    rcases htrace with he | he
    · rw [he]
    · rw [he, h.tags, or_assoc, or_self]
  have hmeta : e'.result.metadata = e.result.metadata := (Metadata.mk.injEq _ _).mpr hmetadata
  rw [h'.rest, hmeta, h.rest]
  rcases htrace with he | he
  · rw [he]
  · rw [he, h.rest]

theorem tags_isolated {s : RulesState} (h : Reachable RulesInitial RulesStep s) {e : Tagged}
    (he : e ∈ s.tagged) :
    e.Exact ∧ (e.trace.threadId = none → e.result = e.trace) ∧
      ∀ s', Reachable RulesInitial RulesStep s' → ∀ e' ∈ s'.tagged,
        (e'.trace = e.trace ∨ e'.trace = e.result) →
        (∀ t, e.trace.threadId = some t → own e'.before t = own e.before t) →
        e'.result = e.result := by
  have hexact := (rules_reachable_inv h).tagged e he
  refine ⟨hexact, hexact.untagged, fun s' h' e' he' htrace hown => ?_⟩
  exact hexact.agree ((rules_reachable_inv h').tagged e' he') htrace hown

/- Two threads use one key; a sample of the first gets its own value. -/
theorem tags_isolated_two_threads : ∃ e : Tagged,
    e.before = [⟨⟨1⟩, ⟨"key", "a"⟩, true⟩, ⟨⟨2⟩, ⟨"key", "b"⟩, true⟩] ∧
      e.result.metadata.tags.toList = [⟨"key", "a"⟩] ∧ e.Exact := by
  have h : Reachable RulesInitial RulesStep ⟨ThreadTagsSet.new, none, fun _ => .idle, [], []⟩ :=
    .init rfl
  have h := h.step (.call ⟨1⟩ (.add ⟨"key", "a"⟩) rfl)
  have h := h.step (.lockAdd ⟨1⟩ rfl rfl)
  have h := h.step (.add ⟨1⟩ rfl rfl)
  have h := h.step (.call ⟨2⟩ (.add ⟨"key", "b"⟩) rfl)
  have h := h.step (.lockAdd ⟨2⟩ rfl rfl)
  have h := h.step (.add ⟨2⟩ rfl rfl)
  have h := h.step (.call ⟨3⟩ (.sample ⟨none, some ⟨1⟩, none, [], Metadata.default⟩) rfl)
  have h := h.step (.lockSample ⟨3⟩ (IterOrder.stored _) rfl rfl rfl)
  have h := h.step (.visit ⟨3⟩ rfl rfl)
  have h := h.step (.visit ⟨3⟩ rfl rfl)
  have h := h.step (.finish ⟨3⟩ rfl rfl)
  exact ⟨_, rfl, rfl, (tags_isolated h (List.mem_singleton_self _)).1⟩

end Pyroscope.Backend
