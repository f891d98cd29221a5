import Mathlib.Data.List.Nodup
import Mathlib.Logic.Function.Basic

/-!
# Linearizability

A history lists the calls and the returns of any number of threads, in the order in
which they happen. It is linearizable when its operations can be put in one order that
the sequential object could have executed with the same replies, and in which no
operation comes after one that was called only when it had returned. An operation that
has not returned yet may be in the order or not.
-/

namespace Pyroscope.Lib
variable {θ ω ρ χ σ : Type*}

inductive Event (θ ω ρ : Type*) where
  | call (t : θ) (op : ω)
  | ret (t : θ) (reply : ρ)
  deriving DecidableEq

def Event.thread : Event θ ω ρ → θ
  | .call t _ => t
  | .ret t _ => t

namespace Linearize

/-- An operation in its place in the order; `called` is where the history calls it. -/
structure Entry (θ ω ρ : Type*) where
  thread : θ
  op : ω
  reply : ρ
  called : ℕ

/-- The event at `j` is the thread's next one after the call. -/
def Returns (h : List (Event θ ω ρ)) (e : Entry θ ω ρ) (j : ℕ) : Prop :=
  h[j]? = some (Event.ret e.thread e.reply) ∧ e.called < j ∧
    ∀ k x, e.called < k → k < j → h[k]? = some x → x.thread ≠ e.thread

/-- The sequential object goes through the operations with these replies. -/
inductive Executes (apply : χ → ω → ρ × χ) (q : χ) : List (Entry θ ω ρ) → χ → Prop where
  | nil : Executes apply q [] q
  | snoc {es q'} (h : Executes apply q es q') (e : Entry θ ω ρ)
      (hreply : e.reply = (apply q' e.op).1) : Executes apply q (es ++ [e]) (apply q' e.op).2

structure Linearization (apply : χ → ω → ρ × χ) (q : χ) (h : List (Event θ ω ρ))
    (order : List (Entry θ ω ρ)) (q' : χ) : Prop where
  executes : Executes apply q order q'
  once : (order.map Entry.called).Nodup
  calls : ∀ e ∈ order, h[e.called]? = some (Event.call e.thread e.op)
  returns : ∀ (j : ℕ) t reply, h[j]? = some (Event.ret t reply) → ∃ e ∈ order, e.thread = t ∧ Returns h e j
  realTime : order.Pairwise fun a b => ∀ j, Returns h b j → a.called < j

/-- Every thread calls one operation at a time. -/
def Alternates (h : List (Event θ ω ρ)) : Prop :=
  ∀ (i j : ℕ) t op op', i < j → h[i]? = some (Event.call t op) → h[j]? = some (Event.call t op') →
    ∃ (k : ℕ) (reply : ρ), i < k ∧ k < j ∧ h[k]? = some (Event.ret t reply)

/-- The order takes the object from `q` to `q'`. -/
def Linearizable (apply : χ → ω → ρ × χ) (q : χ) (h : List (Event θ ω ρ)) (q' : χ) : Prop :=
  Alternates h ∧ ∃ order, Linearization apply q h order q'

/-! ### Points at which operations take effect -/

inductive Status (ω ρ : Type*) where
  | idle
  | called (op : ω)
  | done (op : ω) (reply : ρ)

/-- The operation that has been called and has not returned. -/
def Status.op : Status ω ρ → Option ω
  | .idle => none
  | .called op => some op
  | .done op _ => some op

/-- The thread's last event is the call at `i`. -/
def Last (h : List (Event θ ω ρ)) (t : θ) (i : ℕ) (op : ω) : Prop :=
  h[i]? = some (Event.call t op) ∧ ∀ k x, i < k → h[k]? = some x → x.thread ≠ t

def Knows (h : List (Event θ ω ρ)) (order : List (Entry θ ω ρ)) (t : θ) : Status ω ρ → Prop
  | .idle => ∀ (i : ℕ) op, h[i]? = some (Event.call t op) →
      ∃ (k : ℕ) (reply : ρ), i < k ∧ h[k]? = some (Event.ret t reply)
  | .called op => ∃ i, Last h t i op ∧ ∀ e ∈ order, e.called ≠ i
  | .done op reply =>
    ∃ e ∈ order, e.thread = t ∧ e.op = op ∧ e.reply = reply ∧ Last h t e.called op

structure Tracked (apply : χ → ω → ρ × χ) (q : χ) (h : List (Event θ ω ρ))
    (order : List (Entry θ ω ρ)) (q' : χ) (status : θ → Status ω ρ) : Prop where
  linear : Linearization apply q h order q'
  alternates : Alternates h
  knows : ∀ t, Knows h order t (status t)

section Append
variable {h : List (Event θ ω ρ)} {x : Event θ ω ρ} {order : List (Entry θ ω ρ)}

theorem getElem?_snoc {i : ℕ} {y : Event θ ω ρ} :
    (h ++ [x])[i]? = some y ↔ h[i]? = some y ∨ i = h.length ∧ x = y := by
  rw [List.getElem?_append]
  split_ifs with hi
  · refine ⟨Or.inl, ?_⟩
    rintro (hy | ⟨rfl, -⟩)
    · exact hy
    · exact absurd hi (Nat.lt_irrefl _)
  · have hnone : h[i]? = none := List.getElem?_eq_none (Nat.le_of_not_lt hi)
    rw [hnone, List.getElem?_singleton]
    constructor
    · intro hy
      split_ifs at hy with h0
      exact Or.inr ⟨by omega, Option.some.inj hy⟩
    · rintro (hy | ⟨rfl, rfl⟩)
      · cases hy
      · rw [Nat.sub_self, if_pos rfl]

theorem lt_length {i : ℕ} {y : Event θ ω ρ} (hi : h[i]? = some y) : i < h.length :=
  (List.getElem?_eq_some_iff.mp hi).1

theorem Returns.snoc {e : Entry θ ω ρ} {j : ℕ} :
    Returns (h ++ [x]) e j ↔ Returns h e j ∨
      j = h.length ∧ x = .ret e.thread e.reply ∧ e.called < j ∧
        ∀ k y, e.called < k → h[k]? = some y → y.thread ≠ e.thread := by
  constructor
  · rintro ⟨hret, hlt, hbetween⟩
    rcases getElem?_snoc.mp hret with hj | ⟨rfl, rfl⟩
    · exact Or.inl ⟨hj, hlt, fun k y hk hkj hy => hbetween k y hk hkj (getElem?_snoc.mpr (.inl hy))⟩
    · exact Or.inr ⟨rfl, rfl, hlt, fun k y hk hy =>
        hbetween k y hk (lt_length hy) (getElem?_snoc.mpr (.inl hy))⟩
  · rintro (⟨hret, hlt, hbetween⟩ | ⟨rfl, rfl, hlt, hbetween⟩)
    · refine ⟨getElem?_snoc.mpr (.inl hret), hlt, fun k y hk hkj hy => ?_⟩
      rcases getElem?_snoc.mp hy with hy | ⟨rfl, -⟩
      · exact hbetween k y hk hkj hy
      · exact absurd (lt_length hret) (by omega)
    · refine ⟨getElem?_snoc.mpr (.inr ⟨rfl, rfl⟩), hlt, fun k y hk hkj hy => ?_⟩
      rcases getElem?_snoc.mp hy with hy | ⟨rfl, -⟩
      · exact hbetween k y hk hy
      · exact absurd hkj (Nat.lt_irrefl _)

theorem Last.snoc {t : θ} {i : ℕ} {op : ω} (hl : Last h t i op) (hx : x.thread ≠ t) :
    Last (h ++ [x]) t i op := by
  refine ⟨getElem?_snoc.mpr (.inl hl.1), fun k y hk hy => ?_⟩
  rcases getElem?_snoc.mp hy with hy | ⟨-, rfl⟩
  · exact hl.2 k y hk hy
  · exact hx

/- Another thread's event tells a thread nothing. -/
theorem Knows.snoc {t : θ} {st : Status ω ρ} (hk : Knows h order t st) (hx : x.thread ≠ t) :
    Knows (h ++ [x]) order t st := by
  cases st with
  | idle =>
    intro i op hi
    rcases getElem?_snoc.mp hi with hi | ⟨-, rfl⟩
    · obtain ⟨k, reply, hlt, hret⟩ := hk i op hi
      exact ⟨k, reply, hlt, getElem?_snoc.mpr (.inl hret)⟩
    · exact absurd rfl hx
  | called op =>
    obtain ⟨i, hl, hnew⟩ := hk
    exact ⟨i, hl.snoc hx, hnew⟩
  | done op reply =>
    obtain ⟨e, he, ht, ho, hr, hl⟩ := hk
    exact ⟨e, he, ht, ho, hr, hl.snoc hx⟩

theorem Knows.taken {t : θ} {st : Status ω ρ} {e : Entry θ ω ρ} (hk : Knows h order t st)
    (he : h[e.called]? = some (Event.call e.thread e.op)) (ht : e.thread ≠ t) :
    Knows h (order ++ [e]) t st := by
  cases st with
  | idle => exact hk
  | called op =>
    obtain ⟨i, hl, hnew⟩ := hk
    refine ⟨i, hl, fun e' he' => ?_⟩
    rcases List.mem_append.mp he' with hin | hlast
    · exact hnew e' hin
    · rw [List.mem_singleton.mp hlast]
      rintro rfl
      rw [hl.1] at he
      injection he with he
      injection he with hthread
      exact ht hthread.symm
  | done op reply =>
    obtain ⟨e', he', hrest⟩ := hk
    exact ⟨e', List.mem_append_left _ he', hrest⟩

end Append

/-! ### The three moves of an operation -/

section Moves
variable [DecidableEq θ] {apply : χ → ω → ρ × χ} {q q' : χ} {h : List (Event θ ω ρ)}
  {order : List (Entry θ ω ρ)} {status : θ → Status ω ρ} {t : θ}

omit [DecidableEq θ] in
theorem Tracked.nil : Tracked apply q ([] : List (Event θ ω ρ)) [] q fun _ => .idle :=
  { linear := ⟨.nil, List.nodup_nil, by simp, by simp, List.Pairwise.nil⟩
    alternates := by intro i j t op op' _ hi; simp at hi
    knows := by intro t i op hi; simp at hi }

/- What an update of one thread's status asks of the others. -/
theorem knows_update {h' : List (Event θ ω ρ)} {order' : List (Entry θ ω ρ)} {st : Status ω ρ}
    (hself : Knows h' order' t st)
    (hothers : ∀ t', t' ≠ t → Knows h' order' t' (status t')) (t' : θ) :
    Knows h' order' t' (Function.update status t st t') := by
  by_cases ht : t' = t
  · subst ht
    rw [Function.update_self]
    exact hself
  · rw [Function.update_of_ne ht]
    exact hothers t' ht

theorem Tracked.call (hT : Tracked apply q h order q' status) (hst : status t = .idle) (op : ω) :
    Tracked apply q (h ++ [.call t op]) order q' (Function.update status t (.called op)) := by
  have hidle := hT.knows t
  rw [hst] at hidle
  have hbefore : ∀ e ∈ order, e.called < h.length := fun e he => lt_length (hT.linear.calls e he)
  refine ⟨⟨hT.linear.executes, hT.linear.once, ?_, ?_, ?_⟩, ?_, knows_update ?_ ?_⟩
  · intro e he
    exact getElem?_snoc.mpr (.inl (hT.linear.calls e he))
  · intro j t' reply hj
    rcases getElem?_snoc.mp hj with hj | ⟨-, hj⟩
    · obtain ⟨e, he, ht, hret⟩ := hT.linear.returns j t' reply hj
      exact ⟨e, he, ht, Returns.snoc.mpr (.inl hret)⟩
    · cases hj
  · refine hT.linear.realTime.imp fun hab j hret => ?_
    rcases Returns.snoc.mp hret with hret | ⟨-, hx, -⟩
    · exact hab j hret
    · cases hx
  · intro i j t' op₁ op₂ hij hi hj
    rcases getElem?_snoc.mp hi with hi | ⟨rfl, -⟩
    · rcases getElem?_snoc.mp hj with hj | ⟨rfl, hx⟩
      · obtain ⟨k, reply, hik, hkj, hk⟩ := hT.alternates i j t' op₁ op₂ hij hi hj
        exact ⟨k, reply, hik, hkj, getElem?_snoc.mpr (.inl hk)⟩
      · cases hx
        obtain ⟨k, reply, hik, hk⟩ := hidle i op₁ hi
        exact ⟨k, reply, hik, lt_length hk, getElem?_snoc.mpr (.inl hk)⟩
    · rcases getElem?_snoc.mp hj with hj | ⟨rfl, -⟩
      · exact absurd (lt_length hj) (by omega)
      · exact absurd hij (Nat.lt_irrefl _)
  · refine ⟨h.length, ⟨getElem?_snoc.mpr (.inr ⟨rfl, rfl⟩), fun k x hk hx => ?_⟩,
      fun e he => Nat.ne_of_lt (hbefore e he)⟩
    rcases getElem?_snoc.mp hx with hx | ⟨rfl, -⟩
    · exact absurd (lt_length hx) (by omega)
    · exact absurd hk (Nat.lt_irrefl _)
  · exact fun t' ht => (hT.knows t').snoc (Ne.symm ht)

theorem Tracked.take (hT : Tracked apply q h order q' status) {op : ω}
    (hst : status t = .called op) :
    ∃ order', Tracked apply q h order' (apply q' op).2
      (Function.update status t (.done op (apply q' op).1)) := by
  have hknows := hT.knows t
  rw [hst] at hknows
  obtain ⟨i, hl, hnew⟩ := hknows
  have hlin := hT.linear
  refine ⟨order ++ [⟨t, op, (apply q' op).1, i⟩],
    ⟨hlin.executes.snoc ⟨t, op, (apply q' op).1, i⟩ rfl, ?_, ?_, ?_, ?_⟩, hT.alternates,
    knows_update ?_ ?_⟩
  · rw [List.map_append, List.map_singleton]
    refine hlin.once.append (List.nodup_singleton i) ?_
    intro a ha hai
    obtain ⟨e, he, rfl⟩ := List.mem_map.mp ha
    exact hnew e he (List.mem_singleton.mp hai)
  · intro e he
    rcases List.mem_append.mp he with hin | hlast
    · exact hlin.calls e hin
    · rw [List.mem_singleton.mp hlast]
      exact hl.1
  · intro j t' reply hj
    obtain ⟨e, he, hrest⟩ := hlin.returns j t' reply hj
    exact ⟨e, List.mem_append_left _ he, hrest⟩
  · -- nothing returned after the call that takes effect now
    refine List.pairwise_append.mpr ⟨hlin.realTime, List.pairwise_singleton _ _, ?_⟩
    intro a ha b hb j hret
    rw [List.mem_singleton.mp hb] at hret
    exact absurd rfl (hl.2 j _ hret.2.1 hret.1)
  · exact ⟨_, List.mem_append_right _ (List.mem_singleton_self _), rfl, rfl, rfl, hl⟩
  · exact fun t' ht => (hT.knows t').taken hl.1 (Ne.symm ht)

theorem Tracked.ret (hT : Tracked apply q h order q' status) {op : ω} {reply : ρ}
    (hst : status t = .done op reply) :
    Tracked apply q (h ++ [.ret t reply]) order q' (Function.update status t .idle) := by
  have hknows := hT.knows t
  rw [hst] at hknows
  obtain ⟨e, he, rfl, rfl, rfl, hl⟩ := hknows
  have hlin := hT.linear
  have hbefore : ∀ e ∈ order, e.called < h.length := fun e he => lt_length (hlin.calls e he)
  refine ⟨⟨hlin.executes, hlin.once, ?_, ?_, ?_⟩, ?_, knows_update ?_ ?_⟩
  · intro a ha
    exact getElem?_snoc.mpr (.inl (hlin.calls a ha))
  · intro j t' reply hj
    rcases getElem?_snoc.mp hj with hj | ⟨rfl, hx⟩
    · obtain ⟨a, ha, ht, hret⟩ := hlin.returns j t' reply hj
      exact ⟨a, ha, ht, Returns.snoc.mpr (.inl hret)⟩
    · cases hx
      exact ⟨e, he, rfl, Returns.snoc.mpr (.inr ⟨rfl, rfl, hbefore e he, hl.2⟩)⟩
  · -- what is called later than this return is not yet in the order
    refine (List.pairwise_iff_forall_sublist.mpr ?_)
    intro a b hab j hret
    rcases Returns.snoc.mp hret with hret | ⟨rfl, -⟩
    · exact List.pairwise_iff_forall_sublist.mp hlin.realTime hab j hret
    · exact hbefore a (hab.subset (List.mem_cons_self ..))
  · intro i j t' op₁ op₂ hij hi hj
    rcases getElem?_snoc.mp hi with hi | ⟨-, hx⟩
    · rcases getElem?_snoc.mp hj with hj | ⟨-, hx⟩
      · obtain ⟨k, reply, hik, hkj, hk⟩ := hT.alternates i j t' op₁ op₂ hij hi hj
        exact ⟨k, reply, hik, hkj, getElem?_snoc.mpr (.inl hk)⟩
      · cases hx
    · cases hx
  · intro i op₁ hi
    rcases getElem?_snoc.mp hi with hi | ⟨-, hx⟩
    · exact ⟨h.length, e.reply, lt_length hi, getElem?_snoc.mpr (.inr ⟨rfl, rfl⟩)⟩
    · cases hx
  · exact fun t' ht => (hT.knows t').snoc (Ne.symm ht)

/-- What a thread does in one step: events of its own, and effects on the object. -/
inductive Moves (apply : χ → ω → ρ × χ) (t : θ) :
    χ → Status ω ρ → List (Event θ ω ρ) → χ → Status ω ρ → Prop where
  | stay {q st} : Moves apply t q st [] q st
  | call {q op es q' st'} (h : Moves apply t q (.called op) es q' st') :
    Moves apply t q .idle (.call t op :: es) q' st'
  | take {q op es q' st'}
      (h : Moves apply t (apply q op).2 (.done op (apply q op).1) es q' st') :
    Moves apply t q (.called op) es q' st'
  | ret {q op reply es q' st'} (h : Moves apply t q .idle es q' st') :
    Moves apply t q (.done op reply) (.ret t reply :: es) q' st'

omit [DecidableEq θ] in
theorem Moves.effect {q q₁ q' : χ} {op : ω} {reply : ρ} {es : List (Event θ ω ρ)}
    {st' : Status ω ρ} (hcall : apply q op = (reply, q₁))
    (h : Moves apply t q₁ (.done op reply) es q' st') :
    Moves apply t q (.called op) es q' st' := by
  refine .take ?_
  rw [hcall]
  exact h

theorem Tracked.moves {q₀ : χ} {st st' : Status ω ρ} {es : List (Event θ ω ρ)}
    (hm : Moves apply t q st es q' st') {h : List (Event θ ω ρ)} {order : List (Entry θ ω ρ)}
    {status : θ → Status ω ρ} (hT : Tracked apply q₀ h order q status) (hst : status t = st) :
    ∃ order', Tracked apply q₀ (h ++ es) order' q' (Function.update status t st') := by
  induction hm generalizing h order status with
  | stay =>
    rw [← hst, Function.update_eq_self, List.append_nil]
    exact ⟨order, hT⟩
  | @call q op es q' st' hm ih =>
    obtain ⟨order', hT'⟩ := ih (hT.call hst op) (Function.update_self ..)
    rw [Function.update_idem, List.append_assoc, List.singleton_append] at hT'
    exact ⟨order', hT'⟩
  | @take q op es q' st' hm ih =>
    obtain ⟨order₁, hT₁⟩ := hT.take hst
    obtain ⟨order', hT'⟩ := ih hT₁ (Function.update_self ..)
    rw [Function.update_idem] at hT'
    exact ⟨order', hT'⟩
  | @ret q op reply es q' st' hm ih =>
    obtain ⟨order', hT'⟩ := ih (hT.ret hst) (Function.update_self ..)
    rw [Function.update_idem, List.append_assoc, List.singleton_append] at hT'
    exact ⟨order', hT'⟩

end Moves

/-! ### Systems whose steps are labelled with a thread and its events -/

inductive Recorded (init : σ → Prop) (step : σ → θ → List (Event θ ω ρ) → σ → Prop) :
    σ → List (Event θ ω ρ) → Prop where
  | init {s : σ} (h : init s) : Recorded init step s []
  | step {s s' : σ} {h es : List (Event θ ω ρ)} {t : θ} (hr : Recorded init step s h)
      (hs : step s t es s') : Recorded init step s' (h ++ es)

/- It is enough to say for every step which operations take effect in it. `pending` ties
a thread's place in its code to the status of its operation. -/
theorem linearizable [DecidableEq θ] {init : σ → Prop}
    {step : σ → θ → List (Event θ ω ρ) → σ → Prop} {apply : χ → ω → ρ × χ} {q : χ}
    (inv : σ → Prop) (abs : σ → χ) (pending : σ → θ → Status ω ρ → Prop)
    (hinit : ∀ s, init s → inv s ∧ abs s = q ∧ ∀ t, pending s t .idle)
    (hinv : ∀ s t es s', inv s → step s t es s' → inv s')
    (hstep : ∀ s t es s' st, inv s → step s t es s' → pending s t st →
      ∃ st', Moves apply t (abs s) st es (abs s') st' ∧ pending s' t st')
    (hothers : ∀ s t es s' t' st, inv s → step s t es s' → t' ≠ t → pending s t' st →
      pending s' t' st)
    {s : σ} {h : List (Event θ ω ρ)} (hr : Recorded init step s h) :
    Linearizable apply q h (abs s) := by
  have htracked : inv s ∧ ∃ order status, Tracked apply q h order (abs s) status ∧
      ∀ t, pending s t (status t) := by
    induction hr with
    | @init s hi =>
      obtain ⟨hs, rfl, hp⟩ := hinit s hi
      exact ⟨hs, [], fun _ => .idle, .nil, hp⟩
    | @step s s' h es t hr hs ih =>
      obtain ⟨hi, order, status, hT, hp⟩ := ih
      obtain ⟨st', hm, hp'⟩ := hstep s t es s' (status t) hi hs (hp t)
      obtain ⟨order', hT'⟩ := hT.moves hm rfl
      refine ⟨hinv s t es s' hi hs, order', _, hT', fun t' => ?_⟩
      by_cases ht : t' = t
      · subst ht
        rw [Function.update_self]
        exact hp'
      · rw [Function.update_of_ne ht]
        exact hothers s t es s' t' (status t') hi hs ht (hp t')
  obtain ⟨-, order, status, hT, -⟩ := htracked
  exact ⟨hT.alternates, order, hT.linear⟩

end Linearize
end Pyroscope.Lib
