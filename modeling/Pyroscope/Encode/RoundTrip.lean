import Pyroscope.Encode.Encode

/-!
# A buffer survives the conversion to pprof

`From<StackBuffer> for Vec<Report>` followed by `encode`: the profile decodes to the
entries of the buffer, as a multiset. The string table also holds the three names that
`encode` itself interns, so they count towards the limit on distinct strings.
-/

namespace Pyroscope.Encode
open Pyroscope.Lib Pyroscope.Backend StringTable

/-- An entry of the buffer as the profile should show it, its value not wrapped. -/
def exactEntry (period : ℤ) (e : StackTrace × ℕ) :
    List (String × String × ℤ) × List (String × String) × List ℤ :=
  (e.1.frames.map fun sf => (sf.name, sf.filename, (sf.line : ℤ)),
    e.1.metadata.tags.toList.map fun l => (l.key, l.value), [(e.2 : ℤ) * period])

theorem entryDecoded_exact {period : ℤ} (hp : 0 ≤ period) {e : StackTrace × ℕ}
    (h : (e.2 : ℤ) * period ≤ i64Max) : entryDecoded period e = exactEntry period e := by
  rw [entryDecoded, exactEntry, wrappingMul_exact e.2 period hp h]

theorem entryRequests_toFinset {entries entries' : List (StackTrace × ℕ)} (h : entries.Perm entries') :
    (entryRequests entries).toFinset = (entryRequests entries').toFinset :=
  List.toFinset_eq_of_perm _ _ (h.flatMap_right _)

theorem encodeRequests_toFinset (entries : List (StackTrace × ℕ)) :
    [""].toFinset ∪ (encodeRequests entries).toFinset =
      ("" :: "cpu" :: "nanoseconds" :: entryRequests entries).toFinset := by
  have hreq : encodeRequests entries =
      "cpu" :: "nanoseconds" :: "cpu" :: "nanoseconds" :: entryRequests entries := rfl
  rw [hreq]
  ext s
  simp only [List.mem_toFinset, Finset.mem_union, List.mem_cons, List.not_mem_nil, or_false]
  tauto

theorem buffer_round_trip {Id : Type} [DecidableEq Id] (getId : Metadata → Id)
    (ordBuffer ordData : IterOrder (StackTrace × ℕ)) (ordReports : IterOrder (Id × Report))
    (ordStrings : IterOrder (String × StringID)) (buffer : StackBuffer) (sampleRate : UInt32)
    (timeRange : TimeRange) (hrate : 0 < sampleRate.toNat)
    (hstrings : ("" :: "cpu" :: "nanoseconds" :: entryRequests buffer.data.toList).toFinset.card < u32Max)
    (hfit : ∀ e ∈ buffer.data.toList, (e.2 : ℤ) * (1000000000 / (sampleRate.toNat : ℤ)) ≤ i64Max) :
    ∃ p decoded,
      encode ordData ordStrings (reportsOfBuffer getId ordBuffer ordReports buffer) sampleRate
        timeRange = .ok p ∧
      p.stringTable[0]? = some "" ∧ p.Closed ∧ p.decoded = some decoded ∧
      decoded.Perm (buffer.data.toList.map (exactEntry (1000000000 / (sampleRate.toNat : ℤ)))) := by
  have hperm := reportEntries_perm getId ordBuffer ordData ordReports buffer
  have hroom : Room [""] (encodeRequests
      (reportEntries ordData (reportsOfBuffer getId ordBuffer ordReports buffer))) := by
    refine room_of_card _ _ (List.nodup_singleton _) ?_
    rw [encodeRequests_toFinset]
    simp only [List.toFinset_cons, entryRequests_toFinset hperm] at hstrings ⊢
    exact hstrings
  obtain ⟨p, hp, hfirst, hclosed, hdecoded⟩ :=
    (encode_outcome ordData ordStrings _ sampleRate timeRange hrate.ne').ok hroom
  refine ⟨p, _, hp, hfirst, hclosed, hdecoded, ?_⟩
  have hperiod : 0 ≤ 1000000000 / (sampleRate.toNat : ℤ) :=
    Int.ediv_nonneg (by decide) (Int.natCast_nonneg _)
  have hexact : buffer.data.toList.map (entryDecoded (1000000000 / (sampleRate.toNat : ℤ))) =
      buffer.data.toList.map (exactEntry (1000000000 / (sampleRate.toNat : ℤ))) :=
    List.map_congr_left fun e he => entryDecoded_exact hperiod (hfit e he)
  rw [← hexact]
  exact hperm.map _

/- The two conditions of the conversion, on their own. -/
theorem room_of_perm {entries entries' : List (StackTrace × ℕ)} (h : entries.Perm entries')
    (hcard : ("" :: "cpu" :: "nanoseconds" :: entryRequests entries').toFinset.card < u32Max) :
    Room [""] (encodeRequests entries) := by
  refine room_of_card _ _ (List.nodup_singleton _) ?_
  rw [encodeRequests_toFinset]
  simp only [List.toFinset_cons, entryRequests_toFinset h] at hcard ⊢
  exact hcard

theorem entriesDecoded_exact {sampleRate : UInt32} {entries : List (StackTrace × ℕ)}
    (h : ∀ e ∈ entries, (e.2 : ℤ) * (1000000000 / (sampleRate.toNat : ℤ)) ≤ i64Max) :
    entries.map (entryDecoded (1000000000 / (sampleRate.toNat : ℤ))) =
      entries.map (exactEntry (1000000000 / (sampleRate.toNat : ℤ))) := by
  have hperiod : 0 ≤ 1000000000 / (sampleRate.toNat : ℤ) :=
    Int.ediv_nonneg (by decide) (Int.natCast_nonneg _)
  exact List.map_congr_left fun e he => entryDecoded_exact hperiod (h e he)

def sampleTrace (name : String) (tags : List Tag) : StackTrace :=
  ⟨none, none, none, [⟨name, "app.py", 7⟩, ⟨"main", "app.py", 1⟩],
    tags.foldl Metadata.addTag Metadata.default⟩

def sampleBuffer : StackBuffer :=
  ((StackBuffer.default.record (sampleTrace "f" [⟨"k", "v"⟩])).recordWithCount
    (sampleTrace "g" []) 3).record (sampleTrace "f" [⟨"k", "v"⟩])

/- All metadata share one identifier here, so both traces land in one report. -/
theorem buffer_round_trip_sample :
    ∃ p decoded,
      encode (IterOrder.reversed _) (IterOrder.reversed _)
        (reportsOfBuffer (fun _ => (0 : ℕ)) (IterOrder.stored _) (IterOrder.stored _) sampleBuffer)
        100 ⟨0, 0⟩ = .ok p ∧
      p.stringTable[0]? = some "" ∧ p.Closed ∧ p.decoded = some decoded ∧
      decoded.Perm (sampleBuffer.data.toList.map (exactEntry (1000000000 / ((100 : UInt32).toNat : ℤ)))) :=
  buffer_round_trip (fun _ => (0 : ℕ)) (IterOrder.stored _) (IterOrder.reversed _)
    (IterOrder.stored _) (IterOrder.reversed _) sampleBuffer 100 ⟨0, 0⟩ (by decide) (by decide)
    (by decide)

/-! ### The limit counts the names that `encode` interns itself -/

def letters (n : ℕ) : String := String.ofList (List.replicate (n + 1) 'a')

/-- One trace with `n` distinct names, each its own file. -/
def wideTrace (n : ℕ) : StackTrace :=
  ⟨none, none, none, (List.range n).map fun i => ⟨letters i, letters i, 0⟩, Metadata.default⟩

def wideBuffer (n : ℕ) : StackBuffer := StackBuffer.default.record (wideTrace n)

theorem letters_injective : Function.Injective letters := by
  intro i j h
  have hl : List.replicate (i + 1) 'a' = List.replicate (j + 1) 'a' := String.ofList_injective h
  have hlen := congrArg List.length hl
  rw [List.length_replicate, List.length_replicate] at hlen
  omega

theorem letters_ne (n : ℕ) (s : String) (h : s.toList.head? ≠ some 'a') : letters n ≠ s := by
  intro he
  have hl : s.toList = List.replicate (n + 1) 'a' := by
    rw [← he, letters, String.toList_ofList]
  rw [hl, List.replicate_succ, List.head?_cons] at h
  exact h rfl

theorem wideBuffer_entries (n : ℕ) : (wideBuffer n).data.toList = [(wideTrace n, 1)] :=
  HashMap.toList_addCount_new HashMap.empty (wideTrace n) 1 (HashMap.get_empty _)

theorem wideBuffer_strings (n : ℕ) :
    (entryRequests (wideBuffer n).data.toList).toFinset = (Finset.range n).image letters := by
  rw [wideBuffer_entries]
  ext s
  simp only [entryRequests, traceRequests, frameRequests, labelRequests, wideTrace, Metadata.default,
    BTreeSet.empty, List.flatMap_cons, List.flatMap_nil, List.append_nil, List.flatMap_map,
    List.mem_toFinset, List.mem_flatMap, List.mem_range, List.mem_cons, List.not_mem_nil, or_false,
    or_self, Finset.mem_image, Finset.mem_range, eq_comm]

theorem wideBuffer_card (n : ℕ) :
    (entryRequests (wideBuffer n).data.toList).toFinset.card = n := by
  rw [wideBuffer_strings, Finset.card_image_of_injective _ letters_injective, Finset.card_range]

/- `""` and `"cpu"` come on top of the names of the buffer. -/
theorem wideBuffer_full (n : ℕ) (hn : u32Max < n + 2) {Id : Type} [DecidableEq Id]
    (getId : Metadata → Id) (ordBuffer ordData : IterOrder (StackTrace × ℕ))
    (ordReports : IterOrder (Id × Report)) (ordStrings : IterOrder (String × StringID))
    (sampleRate : UInt32) (timeRange : TimeRange) (hrate : sampleRate.toNat ≠ 0) :
    encode ordData ordStrings (reportsOfBuffer getId ordBuffer ordReports (wideBuffer n)) sampleRate
      timeRange = .error Panic.stringIds := by
  refine (encode_outcome ordData ordStrings _ sampleRate timeRange hrate).panic fun hroom => ?_
  have hperm := reportEntries_perm getId ordBuffer ordData ordReports (wideBuffer n)
  have hcard := card_of_room _ _ (List.nodup_singleton _) (by decide) hroom
  rw [encodeRequests_toFinset] at hcard
  simp only [List.toFinset_cons, entryRequests_toFinset hperm, wideBuffer_strings] at hcard
  have hempty : "" ∉ insert "cpu" ((Finset.range n).image letters) := by
    simp only [Finset.mem_insert, Finset.mem_image, not_or, not_exists, not_and]
    exact ⟨by decide, fun i _ => letters_ne i "" (by decide)⟩
  have hcpu : "cpu" ∉ (Finset.range n).image letters := by
    simp only [Finset.mem_image, not_exists, not_and]
    exact fun i _ => letters_ne i "cpu" (by decide)
  have hsub : insert "" (insert "cpu" ((Finset.range n).image letters)) ⊆
      insert "" (insert "cpu" (insert "nanoseconds" ((Finset.range n).image letters))) :=
    Finset.insert_subset_insert _ (Finset.insert_subset_insert _ (Finset.subset_insert _ _))
  have hle := Finset.card_le_card hsub
  rw [Finset.card_insert_of_notMem hempty, Finset.card_insert_of_notMem hcpu,
    Finset.card_image_of_injective _ letters_injective, Finset.card_range] at hle
  omega

/- `2 ^ 32 - 2` distinct strings in the buffer are already too many. -/
theorem buffer_strings_alone_insufficient :
    (entryRequests (wideBuffer (2 ^ 32 - 2)).data.toList).toFinset.card < 2 ^ 32 - 1 ∧
    (∀ e ∈ (wideBuffer (2 ^ 32 - 2)).data.toList,
      (e.2 : ℤ) * (1000000000 / ((100 : UInt32).toNat : ℤ)) ≤ i64Max) ∧
    encode (IterOrder.stored _) (IterOrder.stored _) (reportsOfBuffer (fun _ => (0 : ℕ))
      (IterOrder.stored _) (IterOrder.stored _) (wideBuffer (2 ^ 32 - 2))) 100 ⟨0, 0⟩ =
        .error Panic.stringIds := by
  refine ⟨?_, ?_, ?_⟩
  · rw [wideBuffer_card]
    omega
  · intro e he
    rw [wideBuffer_entries, List.mem_singleton] at he
    rw [he]
    decide
  · exact wideBuffer_full _ (by simp only [u32Max]; omega) _ _ _ _ _ _ _ (by decide)

end Pyroscope.Encode
