import Pyroscope.Python.TagWrapper

/-!
# A `tag_wrapper` that cannot be entered (python/pyroscope/__init__.py)

The loop that adds the tags stands before the `try`. When a key or a value is refused, the
tags of the items before it have been added, and nobody removes them.
-/

namespace Pyroscope.Python
open Pyroscope.Lib Pyroscope.Backend

/-! ### Without a ruleset to write to -/

namespace AgentState

theorem threadTags_unhealthy {agent : AgentState} (h : ¬agent.Healthy) (ord : IterOrder (ThreadTag × Unit))
    (tid : ThreadId) : agent.threadTags ord tid = [] := by
  cases agent with
  | running ruleset =>
    have hpoisoned : ruleset.poisoned = true := by
      cases hp : ruleset.poisoned with
      | true => rfl
      | false => exact (h ⟨ruleset, rfl, hp⟩).elim
    simp only [threadTags, StackTrace.addTagRules, hpoisoned, if_true]
    rfl
  | _ => rfl

theorem perform_unhealthy {agent : AgentState} (h : ¬agent.Healthy) (op : Operation) :
    (agent.perform op).2 = agent := by
  cases agent with
  | running ruleset =>
    obtain ⟨rules, poisoned⟩ := ruleset
    obtain ⟨t, tag, added⟩ := op
    cases poisoned with
    | false => exact (h ⟨_, rfl, rfl⟩).elim
    | true => cases added <;> rfl
  | idle => unfold perform; split <;> rfl
  | busy => unfold perform; split <;> rfl

end AgentState

namespace Thread
variable {s : Thread}

theorem steps_unhealthy (h : ¬s.agent.Healthy) (ops : List Operation) : (ops.foldl step s).agent = s.agent := by
  induction ops generalizing s with
  | nil => rfl
  | cons op ops ih =>
    have hstep : (s.step op).agent = s.agent := AgentState.perform_unhealthy h op
    exact (ih (hstep ▸ h)).trans hstep

theorem native_unhealthy (h : ¬s.agent.Healthy) (op : Operation) : (s.native op).agent = s.agent := by
  have hyield : s.yield.agent = s.agent := by
    unfold yield
    split
    · rfl
    · next ops others _ => exact steps_unhealthy (s := { s with others }) h ops
  exact (AgentState.perform_unhealthy (hyield ▸ h) op).trans hyield

theorem each_unhealthy (h : ¬s.agent.Healthy) (tid : ThreadId) (added : Bool) (tags : List Tag) :
    (s.each tid added tags).agent = s.agent := by
  induction tags generalizing s with
  | nil => rfl
  | cons tag tags ih =>
    have hnative := native_unhealthy h ⟨tid, tag, added⟩
    exact (ih (hnative ▸ h)).trans hnative

end Thread

/-! ### Up to the first refused item -/

section Entering
variable {Obj E : Type} (extract : Obj → Except E String) (tid : ThreadId)

/-- The items before the first one with a key or a value that is refused. -/
def accepted : List (Obj × Obj) → List Tag
  | [] => []
  | (key, value) :: items =>
    match extract key, extract value with
    | .ok key, .ok value => ⟨key, value⟩ :: accepted items
    | _, _ => []

theorem enter_adds (items : List (Obj × Obj)) (s : Thread) :
    (enter extract tid items s).2 = s.each tid true (accepted extract items) := by
  induction items generalizing s with
  | nil => rfl
  | cons item items ih =>
    obtain ⟨key, value⟩ := item
    cases hkey : extract key with
    | error err =>
      have hcall : enter extract tid ((key, value) :: items) s = (.error err, s) := by
        simp only [enter, Call.forEach, addThreadTag, libCall, hkey]
        rfl
      rw [hcall, accepted, hkey]
      rfl
    | ok k =>
      cases hvalue : extract value with
      | error err =>
        have hcall : enter extract tid ((key, value) :: items) s = (.error err, s) := by
          simp only [enter, Call.forEach, addThreadTag, libCall, hkey, hvalue]
          rfl
        rw [hcall, accepted, hkey, hvalue]
        rfl
      | ok v =>
        have hcall : enter extract tid ((key, value) :: items) s =
            enter extract tid items (s.native ⟨tid, ⟨k, v⟩, true⟩) := by
          simp only [enter, Call.forEach, addThreadTag, libCall, hkey, hvalue]
          rfl
        rw [hcall, accepted, hkey, hvalue]
        exact ih _

variable {extract tid}

/- Neither the block nor the second loop runs when the first loop has failed. -/
theorem tagWrapper_refused {items : List (Obj × Obj)} {body : Call Thread E Unit} {s : Thread} {err : E}
    (h : (enter extract tid items s).1 = .error err) :
    tagWrapper extract tid items body s = (.error err, s.each tid true (accepted extract items)) := by
  have hfailed : enter extract tid items s = (.error err, s.each tid true (accepted extract items)) :=
    Prod.ext h (enter_adds extract tid items s)
  exact Call.bind_of_error hfailed

/-- When a key or a value is refused, the thread has the tags it had before exactly when the
items before it bring no tag that is not attached already, or there is no ruleset to write to. -/
theorem tag_wrapper_all_or_nothing_iff (agent : AgentState) (others : List (List Operation))
    (otherThreads : ∀ ops ∈ others, ∀ op ∈ ops, op.tid ≠ tid) (items : List (Obj × Obj)) (body : Call Thread E Unit)
    (err : E) (raises : (enter extract tid items ⟨agent, others, [], []⟩).1 = .error err) :
    let r := tagWrapper extract tid items body ⟨agent, others, [], []⟩
    (r.1 = .error err ∧ ∀ ord ord', r.2.agent.threadTags ord tid = agent.threadTags ord' tid) ↔
      ∀ ruleset, agent = .running ruleset → ruleset.poisoned = false →
        ∀ tag ∈ accepted extract items, ruleset.Holds ⟨tid, tag⟩ := by
  intro r
  have hr : r = (.error err, Thread.each tid true (accepted extract items) ⟨agent, others, [], []⟩) :=
    tagWrapper_refused raises
  rw [hr]
  by_cases h : agent.Healthy
  · have hready : Thread.Ready tid ⟨agent, others, [], []⟩ := ⟨h, otherThreads, nofun⟩
    have hlater := Thread.each_later hready true (accepted extract items)
    have hmem := Thread.mem_each hready true (accepted extract items)
    constructor
    · rintro ⟨-, hsame⟩ ruleset rfl hopen tag htag
      have hafter : tag ∈ (Thread.each tid true (accepted extract items) ⟨.running ruleset, others, [], []⟩).tags tid :=
        (hmem tag).mpr (by rw [if_pos htag])
      have hlisted := (AgentState.mem_threadTags hlater.ready.healthy (.stored _) tid tag).mpr hafter
      rw [hsame _ (.stored _)] at hlisted
      exact (AgentState.mem_threadTags h (.stored _) tid tag).mp hlisted
    · intro hattached
      refine ⟨rfl, fun ord ord' => AgentState.threadTags_congr hlater.ready.healthy h ord ord' ?_⟩
      ext tag
      refine (hmem tag).trans ?_
      split
      · next htag =>
        obtain ⟨ruleset, rfl, hopen⟩ := h
        exact iff_of_true rfl (hattached ruleset rfl hopen tag htag)
      · exact Iff.rfl
  · have hsame := Thread.each_unhealthy (s := ⟨agent, others, [], []⟩) h tid true (accepted extract items)
    refine iff_of_true ⟨rfl, fun ord ord' => ?_⟩ fun ruleset hrunning hopen => (h ⟨ruleset, hrunning, hopen⟩).elim
    rw [hsame, AgentState.threadTags_unhealthy h, AgentState.threadTags_unhealthy h]

end Entering

inductive PyObject where
  | str (value : String)
  | int (value : ℤ)

inductive PyErr where
  | typeError

/-- What `key: String` and `value: String` accept. -/
def PyObject.extract : PyObject → Except PyErr String
  | .str value => .ok value
  | .int _ => .error .typeError

/- The second value is an `int`; the first item is attached already. -/
theorem tag_wrapper_all_or_nothing_attached :
    let agent := replay [⟨⟨1⟩, ⟨"a", "1"⟩, true⟩]
    let dict : List (PyObject × PyObject) := [(.str "a", .str "1"), (.str "b", .int 2)]
    let r := tagWrapper PyObject.extract ⟨1⟩ dict (pure ()) ⟨agent, [], [], []⟩
    (enter PyObject.extract ⟨1⟩ dict ⟨agent, [], [], []⟩).1 = .error .typeError ∧
    ((r.1 = .error .typeError ∧ ∀ ord ord', r.2.agent.threadTags ord ⟨1⟩ = agent.threadTags ord' ⟨1⟩) ↔
      ∀ ruleset, agent = .running ruleset → ruleset.poisoned = false →
        ∀ tag ∈ accepted PyObject.extract dict, ruleset.Holds ⟨⟨1⟩, tag⟩) :=
  ⟨rfl, tag_wrapper_all_or_nothing_iff _ [] nofun _ _ PyErr.typeError rfl⟩

/- The first item stays attached. -/
theorem refused_dict_leaves_tag :
    let agent := replay []
    let r := tagWrapper PyObject.extract ⟨1⟩ [(.str "a", .str "1"), (.str "b", .int 2)] (pure ()) ⟨agent, [], [], []⟩
    r.1 = .error .typeError ∧ agent.threadTags (.stored _) ⟨1⟩ = [] ∧
      r.2.agent.threadTags (.stored _) ⟨1⟩ = [⟨"a", "1"⟩] :=
  ⟨rfl, rfl, by decide +kernel⟩

end Pyroscope.Python
