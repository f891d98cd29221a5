import Pyroscope.Lib.Utf8
import Pyroscope.Agent.Interning

/-!
# Strings and their indices (encode/pprof.rs, encode/interner.rs)

A sequence of `StringTable::add` calls gives the distinct strings the indices from 0 on, in
order of first occurrence. `pyroscope_string_table_intern_utf8` and `_ascii` are the two doors
to the table from C++.
-/

namespace Pyroscope.Encode.StringTable
open Pyroscope.Lib

/-! ### Sequences of `add` -/

def addAll (st : StringTable) : List String → Except Panic (List StringID × StringTable)
  | [] => .ok ([], st)
  | s :: ss =>
    match st.add s with
    | .error p => .error p
    | .ok (id, st) =>
      match addAll st ss with
      | .error p => .error p
      | .ok (ids, st) => .ok (id :: ids, st)

/- An index is a position among the distinct strings, and the list of these only grows. -/
theorem idxOf_mono {xs ys : List String} (h : xs <+: ys) {s : String} (hs : s ∈ xs) : ys.idxOf s = xs.idxOf s := by
  obtain ⟨rest, rfl⟩ := h
  exact List.idxOf_append_of_mem hs

theorem mem_internKeys_self (strings : List String) (s : String) : s ∈ internKeys strings s :=
  (mem_internKeys strings s s).mpr (.inr rfl)

theorem addAll_outcome {st : StringTable} {strings : List String} (h : Repr st strings) (ss : List String) :
    Outcome (Room strings ss) Panic.stringIds (st.addAll ss) fun r =>
      r.1 = (ss.map fun s => ⟨(internAll strings ss).idxOf s⟩) ∧ Repr r.2 (internAll strings ss) := by
  induction ss generalizing st strings with
  | nil => exact .pure ⟨rfl, h⟩
  | cons s ss ih =>
    refine ⟨fun room => ?_, fun full => ?_⟩
    · obtain ⟨⟨id, st'⟩, hadd, hid, hrepr⟩ := (add_outcome h s).ok room.1
      obtain ⟨⟨ids, st''⟩, hall, hids, hrepr'⟩ := (ih hrepr).ok room.2
      refine ⟨(id :: ids, st''), by simp only [addAll, hadd, hall], ?_, hrepr'⟩
      have hidx := idxOf_mono (internAll_mono (internKeys strings s) ss) (mem_internKeys_self strings s)
      show id :: ids = _ :: _
      rw [show id = _ from hid, show ids = _ from hids, ← hidx]
      rfl
    · by_cases room : strings.length < u32Max
      · obtain ⟨⟨id, st'⟩, hadd, -, hrepr⟩ := (add_outcome h s).ok room
        have hrest := (ih hrepr).panic fun hroom => full ⟨room, hroom⟩
        simp only [addAll, hadd, hrest]
      · simp only [addAll, (add_outcome h s).panic room]

/- The strings of the table are the requested ones without their repetitions. -/
theorem internAll_eq_eraseDups (ss : List String) : internAll [""] ss = ("" :: ss).eraseDups := by
  induction ss using List.reverseRecOn with
  | nil => rfl
  | append_singleton ss s ih =>
    have hmem : s ∈ internAll [""] ss ↔ s ∈ "" :: ss := by
      rw [← List.mem_toFinset, internAll_toFinset, ← List.toFinset_append, List.mem_toFinset]
      rfl
    have hcons : "" :: (ss ++ [s]) = ("" :: ss) ++ [s] := rfl
    rw [hcons, List.eraseDups_append, ← ih, internAll_append]
    show internKeys (internAll [""] ss) s = _
    rw [internKeys]
    split
    · next hs =>
      have hnone : [s].removeAll ("" :: ss) = [] := by
        simp only [List.removeAll, List.filter_eq_nil_iff, List.mem_singleton]
        rintro x rfl
        show ¬(!List.elem x ("" :: ss)) = true
        rw [List.elem_eq_true_of_mem (hmem.mp hs)]
        exact Bool.false_ne_true
      rw [hnone, List.eraseDups_nil, List.append_nil]
    · next hs =>
      have hself : [s].removeAll ("" :: ss) = [s] := by
        rw [List.removeAll, List.filter_eq_self]
        intro x hx
        rw [List.mem_singleton] at hx
        subst hx
        simpa using fun h => hs (hmem.mpr h)
      rw [hself]
      rfl

/-- What `ss` leaves behind, with `ids` the indices it was answered with. -/
structure StableBijection (ss : List String) (ids : List StringID) (st : StringTable) : Prop where
  /-- the strings in order of first occurrence, at the positions from 0 on -/
  indices : ∀ s id, st.set.get s = some id ↔ ("" :: ss).eraseDups[id.index]? = some s
  count : st.set.len = ("" :: ss).eraseDups.length
  empty : st.set.get "" = some ⟨0⟩
  answered : ids.length = ss.length
  same : ∀ (j k : ℕ) s t id id', ss[j]? = some s → ss[k]? = some t → ids[j]? = some id → ids[k]? = some id' →
    (id = id' ↔ s = t)
  stable : ∀ ss₁ ss₂, ss = ss₁ ++ ss₂ → ∃ ids₁ st₁, addAll .new ss₁ = .ok (ids₁, st₁) ∧ ids₁ <+: ids ∧
    ∀ s id, st₁.set.get s = some id → st.set.get s = some id
  layout : ∀ ord ord' dst, ∃ v, st.intoPprofTable ord = .ok v ∧ st.clonePprofTable ord' dst = .ok v ∧
    ∀ (j : ℕ) s id, ss[j]? = some s → ids[j]? = some id → v[id.index]? = some s

theorem Repr.get_iff {st : StringTable} {strings : List String} (h : Repr st strings) (s : String) (id : StringID) :
    st.set.get s = some id ↔ strings[id.index]? = some s := by
  rw [h.dense.get_iff]
  constructor
  · rintro ⟨i, hi, rfl⟩
    exact hi
  · intro hi
    exact ⟨id.index, hi, rfl⟩

/- The index of a requested string is a position of it. -/
theorem answered_getElem {ss : List String} {ids : List StringID} {strings : List String} {j : ℕ} {s : String}
    {id : StringID} (hmem : ∀ s ∈ ss, s ∈ strings) (hids : ids = ss.map fun s => ⟨strings.idxOf s⟩)
    (hs : ss[j]? = some s) (hid : ids[j]? = some id) : strings[id.index]? = some s := by
  rw [hids, List.getElem?_map, hs] at hid
  cases hid
  have hin := hmem s (List.mem_of_getElem? hs)
  rw [List.getElem?_eq_getElem (List.idxOf_lt_length_of_mem hin), List.getElem_idxOf]

theorem addAll_bijection (ss : List String) (room : (insert "" ss.toFinset).card < u32Max) :
    ∃ ids st, addAll .new ss = .ok (ids, st) ∧ StableBijection ss ids st := by
  have hroom : Room [""] ss := room_of_card _ _ (List.nodup_singleton _) room
  obtain ⟨⟨ids, st⟩, hall, hids, hrepr⟩ := (addAll_outcome new_repr ss).ok hroom
  have hmem : ∀ s ∈ ss, s ∈ internAll [""] ss := fun s hs => by
    rw [← List.mem_toFinset, internAll_toFinset]
    exact Finset.mem_union_right _ (List.mem_toFinset.mpr hs)
  have hanswer : ∀ (j : ℕ) s id, ss[j]? = some s → ids[j]? = some id → (internAll [""] ss)[id.index]? = some s :=
    fun j s id => answered_getElem hmem hids
  refine ⟨ids, st, hall, ?_, ?_, (hrepr.get_iff _ _).mpr hrepr.first, ?_, ?_, ?_, ?_⟩
  · rw [← internAll_eq_eraseDups]
    exact hrepr.get_iff
  · rw [← internAll_eq_eraseDups]
    exact hrepr.dense.len_eq
  · rw [show ids = _ from hids, List.length_map]
  · intro j k s t id id' hs ht hid hid'
    have hpos := hanswer j s id hs hid
    have hpos' := hanswer k t id' ht hid'
    constructor
    · rintro rfl
      exact Option.some.inj (hpos.symm.trans hpos')
    · rintro rfl
      have hindex := nodup_getElem?_inj hrepr.nodup hpos hpos'
      exact (StringID.mk.injEq ..).mpr hindex
  · rintro ss₁ ss₂ rfl
    obtain ⟨⟨ids₁, st₁⟩, hall₁, hids₁, hrepr₁⟩ := (addAll_outcome new_repr ss₁).ok ((room_append _ _ _).mp hroom).1
    have hgrows : internAll [""] ss₁ <+: internAll [""] (ss₁ ++ ss₂) := by
      rw [internAll_append]
      exact internAll_mono _ _
    refine ⟨ids₁, st₁, hall₁, ?_, fun s id hget => ?_⟩
    · have hsame : ids₁ = ss₁.map fun s => ⟨(internAll [""] (ss₁ ++ ss₂)).idxOf s⟩ := by
        rw [show ids₁ = _ from hids₁]
        refine List.map_congr_left fun s hs => ?_
        rw [idxOf_mono hgrows]
        rw [← List.mem_toFinset, internAll_toFinset]
        exact Finset.mem_union_right _ (List.mem_toFinset.mpr hs)
      rw [hsame, show ids = _ from hids, List.map_append]
      exact List.prefix_append _ _
    · exact (hrepr.get_iff s id).mpr (getElem?_mono hgrows ((hrepr₁.get_iff s id).mp hget))
  · intro ord ord' dst
    exact ⟨_, intoPprofTable_repr hrepr ord, clonePprofTable_repr hrepr ord' dst, hanswer⟩

end Pyroscope.Encode.StringTable

namespace Pyroscope.Agent
open Pyroscope.Lib Pyroscope.Encode

/-! ### The two doors -/

inductive Door where
  | utf8
  | ascii

namespace Interner

def through (i : Interner) : Door → FFIStringView → Except Panic (StringID × Interner)
  | .utf8, view => i.internUtf8 view
  | .ascii, view => i.internAscii view

def throughAll (i : Interner) : List (Door × FFIStringView) → Except Panic (List StringID × Interner)
  | [] => .ok ([], i)
  | (door, view) :: calls =>
    match i.through door view with
    | .error p => .error p
    | .ok (id, i) =>
      match throughAll i calls with
      | .error p => .error p
      | .ok (ids, i) => .ok (id :: ids, i)

end Interner

def sentinel : List UInt8 := "<non-utf8>".toByteArray.data.toList

def FFIStringView.isEmpty (view : FFIStringView) : Prop := view.data = none ∨ view.data = some []

def Reached (st : StringTable) : Prop := ∃ ss ids, StringTable.addAll .new ss = .ok (ids, st)

/-- What the doors answer when the table is `st` and its lock is not poisoned. -/
structure Doors (st : StringTable) : Prop where
  zero : ∀ view id i, Interner.internUtf8 ⟨st, false⟩ view = .ok (id, i) → (id.index = 0 ↔ view.isEmpty)
  /-- the assertion of `StringID::new` fails for a full table only -/
  returns : ∀ view, (∃ r, Interner.internUtf8 ⟨st, false⟩ view = .ok r) ↔ view.isEmpty ∨ st.set.len < u32Max
  valid : ∀ bytes bytes' calls id ids id' i₁ i₂ i₃, Utf8.IsValid bytes → Utf8.IsValid bytes' →
    Interner.internUtf8 ⟨st, false⟩ ⟨some bytes⟩ = .ok (id, i₁) → i₁.throughAll calls = .ok (ids, i₂) →
    i₂.internUtf8 ⟨some bytes'⟩ = .ok (id', i₃) → (id = id' ↔ bytes = bytes')
  invalid : ∀ bytes, ¬Utf8.IsValid bytes →
    Interner.internUtf8 ⟨st, false⟩ ⟨some bytes⟩ = Interner.internUtf8 ⟨st, false⟩ ⟨some sentinel⟩
  ascii : ∀ bytes, Utf8.IsAscii bytes →
    Interner.internAscii ⟨st, false⟩ ⟨some bytes⟩ = Interner.internUtf8 ⟨st, false⟩ ⟨some bytes⟩

theorem Reached.repr {st : StringTable} (h : Reached st) : ∃ strings, st.Repr strings := by
  obtain ⟨ss, ids, hall⟩ := h
  by_cases hroom : StringTable.Room [""] ss
  · obtain ⟨r, hr, -, hrepr⟩ := (StringTable.addAll_outcome StringTable.new_repr ss).ok hroom
    cases hall.symm.trans hr
    exact ⟨_, hrepr⟩
  · exact nomatch hall.symm.trans ((StringTable.addAll_outcome StringTable.new_repr ss).panic hroom)

theorem through_spec {door : Door} {i i' : Interner} {view : FFIStringView} {id : StringID} {strings : List String}
    (ht : i.table.Repr strings) (h : i.through door view = .ok (id, i')) :
    ∃ strings', i'.table.Repr strings' ∧ strings <+: strings' ∧ i'.poisoned = i.poisoned := by
  cases door with
  | utf8 =>
    obtain ⟨strings', hrepr, hgrows, hp, -⟩ := intern_spec ht h
    exact ⟨strings', hrepr, hgrows, hp⟩
  | ascii =>
    obtain ⟨strings', hrepr, hgrows, hp, -⟩ := intern_spec ht h
    exact ⟨strings', hrepr, hgrows, hp⟩

theorem throughAll_spec {calls : List (Door × FFIStringView)} {i i' : Interner} {ids : List StringID}
    {strings : List String} (ht : i.table.Repr strings) (h : i.throughAll calls = .ok (ids, i')) :
    ∃ strings', i'.table.Repr strings' ∧ strings <+: strings' ∧ i'.poisoned = i.poisoned := by
  induction calls generalizing i ids strings with
  | nil =>
    cases h
    exact ⟨strings, ht, List.prefix_refl _, rfl⟩
  | cons call calls ih =>
    obtain ⟨door, view⟩ := call
    rw [Interner.throughAll] at h
    split at h
    · cases h
    · next id i₁ hcall =>
      split at h
      · cases h
      · next ids₁ i₂ hcalls =>
        cases h
        obtain ⟨strings₁, hrepr, hgrows, hp⟩ := through_spec ht hcall
        obtain ⟨strings₂, hrepr', hgrows', hp'⟩ := ih hrepr hcalls
        exact ⟨strings₂, hrepr', hgrows.trans hgrows', hp'.trans hp⟩

theorem nil_valid : Utf8.IsValid [] := by decide

theorem fromUtf8_valid {bytes : List UInt8} (h : Utf8.IsValid bytes) :
    fromUtf8 bytes = String.fromUTF8 ⟨bytes.toArray⟩ h := by
  rw [fromUtf8, Utf8.fromUTF8?_valid h]
  rfl

theorem fromUtf8_invalid {bytes : List UInt8} (h : ¬Utf8.IsValid bytes) : fromUtf8 bytes = "<non-utf8>" := by
  rw [fromUtf8, Utf8.fromUTF8?_invalid h]
  rfl

theorem str_valid {bytes : List UInt8} (h : Utf8.IsValid bytes) :
    (FFIStringView.mk (some bytes)).str fromUtf8 = String.fromUTF8 ⟨bytes.toArray⟩ h := by
  cases bytes with
  | nil => rfl
  | cons b bytes => exact fromUtf8_valid h

theorem str_eq_empty (view : FFIStringView) : view.str fromUtf8 = "" ↔ view.isEmpty := by
  obtain ⟨_ | _ | ⟨b, bytes⟩⟩ := view
  · exact iff_of_true rfl (.inl rfl)
  · exact iff_of_true rfl (.inr rfl)
  · refine iff_of_false ?_ fun h => h.elim nofun nofun
    show fromUtf8 (b :: bytes) ≠ ""
    by_cases h : Utf8.IsValid (b :: bytes)
    · rw [fromUtf8_valid h]
      exact Utf8.fromUTF8_ne_empty h (List.cons_ne_nil _ _)
    · rw [fromUtf8_invalid h]
      decide

theorem fromUtf8_sentinel : fromUtf8 sentinel = "<non-utf8>" := by
  have hbytes : ByteArray.mk sentinel.toArray = "<non-utf8>".toByteArray := rfl
  rw [fromUtf8, hbytes, String.fromUTF8?, dif_pos "<non-utf8>".isValidUTF8]
  rfl

/- A door sees what the bytes decode to. -/
theorem intern_congr {decode decode' : List UInt8 → String} (i : Interner) {bytes bytes' : List UInt8}
    (hne : bytes ≠ []) (hne' : bytes' ≠ []) (hsame : decode bytes = decode' bytes') :
    i.intern decode ⟨some bytes⟩ = i.intern decode' ⟨some bytes'⟩ := by
  obtain ⟨b, bs, rfl⟩ := List.exists_cons_of_ne_nil hne
  obtain ⟨b', bs', rfl⟩ := List.exists_cons_of_ne_nil hne'
  simp only [Interner.intern, hsame]

theorem doors {st : StringTable} (h : Reached st) : Doors st := by
  obtain ⟨strings, ht⟩ := h.repr
  refine ⟨?_, ?_, ?_, ?_, ?_⟩
  · intro view id i hcall
    obtain ⟨strings', hrepr, -, -, hget⟩ := intern_spec ht hcall
    have hstr := hget rfl
    rw [← str_eq_empty]
    constructor
    · intro hzero
      rw [hzero, hrepr.first] at hstr
      exact (Option.some.inj hstr).symm
    · intro hempty
      rw [hempty] at hstr
      exact nodup_getElem?_inj hrepr.nodup hstr hrepr.first
  · intro view
    obtain ⟨_ | _ | ⟨b, bytes⟩⟩ := view
    · exact iff_of_true ⟨_, rfl⟩ (.inl (.inl rfl))
    · exact iff_of_true ⟨_, rfl⟩ (.inl (.inr rfl))
    · rw [ht.dense.len_eq]
      have hadd := StringTable.add_outcome ht (fromUtf8 (b :: bytes))
      constructor
      · rintro ⟨r, hr⟩
        by_contra hfull
        have hpanic := hadd.panic fun hroom => hfull (.inr hroom)
        simp only [Interner.internUtf8, Interner.intern, hpanic] at hr
        cases hr
      · intro hroom
        have hne : ¬FFIStringView.isEmpty ⟨some (b :: bytes)⟩ := by
          rintro (h | h) <;> cases h
        obtain ⟨r, hr, -⟩ := hadd.ok (hroom.resolve_left hne)
        refine ⟨(r.1, ⟨r.2, false⟩), ?_⟩
        simp only [Interner.internUtf8, Interner.intern, hr]
        rfl
  · intro bytes bytes' calls id ids id' i₁ i₂ i₃ hv hv' hcall hcalls hcall'
    obtain ⟨strings₁, hrepr₁, -, hp₁, hget₁⟩ := intern_spec ht hcall
    obtain ⟨strings₂, hrepr₂, hgrows₂, hp₂⟩ := throughAll_spec hrepr₁ hcalls
    obtain ⟨strings₃, hrepr₃, hgrows₃, hp₃, hget₃⟩ := intern_spec hrepr₂ hcall'
    have hfirst := getElem?_mono (hgrows₂.trans hgrows₃) (hget₁ rfl)
    have hsecond := hget₃ (hp₂.trans hp₁)
    rw [str_valid hv] at hfirst
    rw [str_valid hv'] at hsecond
    constructor
    · rintro rfl
      exact Utf8.fromUTF8_inj hv hv' (Option.some.inj (hfirst.symm.trans hsecond))
    · rintro rfl
      exact (StringID.mk.injEq ..).mpr (nodup_getElem?_inj hrepr₃.nodup hfirst hsecond)
  · intro bytes hv
    have hne : bytes ≠ [] := fun he => hv (he ▸ nil_valid)
    exact intern_congr _ hne (by decide) ((fromUtf8_invalid hv).trans fromUtf8_sentinel.symm)
  · intro bytes hascii
    have hdecode : fromAscii bytes = fromUtf8 bytes := by
      rw [fromUtf8, Utf8.fromUTF8?_ascii hascii]
      rfl
    cases bytes with
    | nil => rfl
    | cons b bytes => exact intern_congr _ (List.cons_ne_nil _ _) (List.cons_ne_nil _ _) hdecode

/-- The string table is a stable bijection that both ways of laying it out agree on, and so it
is through the doors of the profilers. -/
theorem string_table_bijection (ss : List String) (room : (insert "" ss.toFinset).card < u32Max) :
    (∃ ids st, StringTable.addAll .new ss = .ok (ids, st) ∧ StringTable.StableBijection ss ids st) ∧
      ∀ st, Reached st → Doors st :=
  ⟨StringTable.addAll_bijection ss room, fun _ => doors⟩

theorem string_table_bijection_repeated : (insert "" ["a", "", "b", "a"].toFinset).card < u32Max ∧
    (∃ ids st, StringTable.addAll .new ["a", "", "b", "a"] = .ok (ids, st) ∧
      StringTable.StableBijection ["a", "", "b", "a"] ids st) ∧ ∀ st, Reached st → Doors st :=
  ⟨by decide, string_table_bijection _ (by decide)⟩

end Pyroscope.Agent
