import Flowness.Snapshot.GcStore

/-!
What every step of the store keeps, whichever segments the runs take: ids are unique and an archive
has what is left of its segment in the hot directory.
-/

namespace Flowness.Snapshot

open Option List Library Schemas Ledger Dict
open Ledger.EventIndex (idsOf)

namespace GcStore

variable (store : GcStore)

def Routed (record : EventRecord) : Prop :=
  ∃ segment records, Dict.get store.routes record.eventId.val = some segment ∧
    Dict.get store.archives segment = some records ∧ record ∈ records

def Kept (record : EventRecord) : Prop := record ∈ store.hotRecords ∨ store.Routed record

def Shelved (segment : Nat) (record : EventRecord) : Prop :=
  ∃ archived, Dict.get store.archives segment = some archived ∧ record ∈ archived

def Sealed (segment : Nat) : Prop := ∃ number ∈ Dict.keys store.hot, segment < number

structure Filed : Prop where
  ids : (idsOf store.written).Nodup
  ascending : Ascending Prod.fst store.hot
  hot_written : ∀ record ∈ store.hotRecords, record ∈ store.written
  archived_written : ∀ segment records, Dict.get store.archives segment = some records →
    ∀ record ∈ records, record ∈ store.written
  below : ∀ segment ∈ Dict.keys store.archives, store.Sealed segment
  shelved : ∀ segment archived records, Dict.get store.archives segment = some archived →
    Dict.get store.hot segment = some records →
      ∀ record ∈ records, legible record = true → record ∈ archived

variable {store : GcStore} {record : EventRecord}

theorem Filed.eq_of_id (h : store.Filed) (ha : a ∈ store.written) (hb : b ∈ store.written)
    (hid : a.eventId.val = b.eventId.val) : a = b :=
  inj_on_of_nodup_map h.ids ha hb hid

theorem Filed.getEvent_of_kept (h : store.Filed) (hwritten : record ∈ store.written)
    (hkept : store.Kept record) : store.getEvent record.eventId.val = some record := by
  unfold getEvent
  cases hlast : (store.hotRecords.filter (·.eventId.val = record.eventId.val)).getLast? with
  | some found =>
    have hmem := mem_filter.mp (mem_of_getLast? hlast)
    have heq := h.eq_of_id (h.hot_written found hmem.1) hwritten (by simpa using hmem.2)
    rw [heq]
  | none =>
    have hnone := List.getLast?_eq_none_iff.mp hlast
    rcases hkept with hhot | ⟨segment, records, hroute, harchive, hrecord⟩
    · have hmem : record ∈ store.hotRecords.filter (·.eventId.val = record.eventId.val) :=
        mem_filter.mpr ⟨hhot, by simp⟩
      rw [hnone] at hmem
      contradiction
    · simp only [hroute, bind_some, harchive]
      cases hfind : records.find? (·.eventId.val = record.eventId.val) with
      | none =>
        have habsent := List.find?_eq_none.mp hfind record hrecord
        simp at habsent
      | some found =>
        have hsame := List.find?_some hfind
        have hfound := h.archived_written segment records harchive found
          (mem_of_find?_eq_some hfind)
        rw [h.eq_of_id hfound hwritten (by simpa using hsame)]

theorem kept_of_getEvent (h : store.getEvent eventId = some record) :
    store.Kept record ∧ record.eventId.val = eventId := by
  unfold getEvent at h
  split at h
  next found hlast =>
    have hmem := mem_filter.mp (mem_of_getLast? hlast)
    cases h
    exact ⟨.inl hmem.1, by simpa using hmem.2⟩
  · obtain ⟨records, hrecords, hfind⟩ := bind_eq_some_iff.mp h
    obtain ⟨segment, hroute, harchive⟩ := bind_eq_some_iff.mp hrecords
    have hsame : record.eventId.val = eventId := by simpa using List.find?_some hfind
    rw [← hsame] at hroute
    exact ⟨.inr ⟨segment, records, hroute, harchive, mem_of_find?_eq_some hfind⟩, hsame⟩

theorem Filed.written_of_kept (h : store.Filed) (hkept : store.Kept record) :
    record ∈ store.written := by
  rcases hkept with hhot | ⟨segment, records, -, harchive, hrecord⟩
  · exact h.hot_written record hhot
  · exact h.archived_written segment records harchive record hrecord

theorem Filed.written_of_getEvent (h : store.Filed) (hfound : store.getEvent eventId =
  some record) : record ∈ store.written ∧ record.eventId.val = eventId := by
  obtain ⟨hkept, hid⟩ := kept_of_getEvent hfound
  exact ⟨h.written_of_kept hkept, hid⟩

theorem Kept.append (h : Ascending Prod.fst store.hot) (hkept : store.Kept record) (rotates : Bool)
    (records : List EventRecord) : (store.append rotates records).Kept record := by
  rcases hkept with hhot | ⟨segment, held, hroute, harchive, hrecord⟩
  · exact .inl ((mem_hotRecords_append h).mpr (.inl hhot))
  · refine .inr ⟨segment, held, ?_, ?_, hrecord⟩
    · rw [routes_append]
      exact hroute
    · rw [archives_append]
      exact harchive

variable {next : GcStore} {records : List EventRecord} {other segment : Nat}

theorem Sealed.append (h : Ascending Prod.fst store.hot) (hsealed : store.Sealed segment)
    (rotates : Bool) (records : List EventRecord) :
    (store.append rotates records).Sealed segment := by
  obtain ⟨number, hnumber, hlt⟩ := hsealed
  exact ⟨number, (keys_append h rotates records).2 number hnumber, hlt⟩

theorem Filed.append (h : store.Filed) (hids : (idsOf (store.written ++ records)).Nodup) :
    (store.append rotates records).Filed where
  ids := by
    rw [written_append]
    exact hids
  ascending := (keys_append h.ascending rotates records).1
  hot_written record hrecord := by
    rw [written_append]
    rcases (mem_hotRecords_append h.ascending).mp hrecord with hold | hnew
    · exact mem_append_left _ (h.hot_written record hold)
    · exact mem_append_right _ hnew
  archived_written segment held harchive record hrecord := by
    rw [archives_append] at harchive
    rw [written_append]
    exact mem_append_left _ (h.archived_written segment held harchive record hrecord)
  below segment hsegment := by
    rw [archives_append] at hsegment
    exact (h.below segment hsegment).append h.ascending rotates records
  shelved segment archived held harchive hget := by
    rw [archives_append] at harchive
    obtain ⟨number, hnumber, hlt⟩ := h.below segment (mem_keys_of_get harchive)
    rw [get_hot_append h.ascending hnumber hlt] at hget
    exact h.shelved segment archived held harchive hget

theorem Filed.archived (h : store.Filed) (hget : Dict.get store.hot segment = some records) :
    ∃ archived, Dict.get (store.archive segment records).archives segment = some archived ∧
      ∀ record ∈ records, legible record = true → record ∈ archived := by
  unfold archive
  split
  next hcontains =>
    obtain ⟨archived, harchive⟩ := isSome_iff_exists.mp hcontains
    exact ⟨archived, harchive, h.shelved segment archived records harchive hget⟩
  · exact ⟨_, get_set_self _ _ _, fun record hrecord hlegible =>
      mem_filter.mpr ⟨hrecord, hlegible⟩⟩

theorem Kept.archive (hkept : store.Kept record) (segment : Nat) (records : List EventRecord) :
    (store.archive segment records).Kept record := by
  rcases hkept with hhot | ⟨other, held, hroute, harchive, hmem⟩
  · left
    rw [hotRecords_archive]
    exact hhot
  · refine .inr ⟨other, held, ?_, get_archives_archive harchive, hmem⟩
    rw [routes_archive]
    exact hroute

theorem Filed.archive (h : store.Filed) (hget : Dict.get store.hot segment = some records)
    (hsealed : store.Sealed segment) : (store.archive segment records).Filed where
  ids := by
    rw [written_archive]
    exact h.ids
  ascending := by
    rw [hot_archive]
    exact h.ascending
  hot_written := by
    rw [hotRecords_archive, written_archive]
    exact h.hot_written
  archived_written other held := by
    unfold GcStore.archive
    split
    · exact h.archived_written other held
    · intro harchive record hrecord
      by_cases heq : other = segment
      · subst heq
        rw [get_set_self] at harchive
        rw [← some.inj harchive] at hrecord
        exact h.hot_written record ((mem_hotRecords h.ascending).mpr
          (.inr ⟨other, records, hget, mem_of_mem_filter hrecord⟩))
      · rw [get_set_of_ne _ _ heq] at harchive
        exact h.archived_written other held harchive record hrecord
  below other := by
    unfold Sealed
    unfold GcStore.archive
    split
    · exact h.below other
    · intro hother
      by_cases heq : other = segment
      · rw [heq]
        exact hsealed
      · refine h.below other ?_
        by_contra habsent
        rw [← get_eq_none_iff] at habsent
        have hnone := (get_set_of_ne store.archives (records.filter legible) heq).trans habsent
        exact Dict.get_eq_none_iff.mp hnone hother
  shelved other archived held harchive hheld := by
    rw [hot_archive] at hheld
    by_cases heq : other = segment
    · subst heq
      obtain ⟨copy, hcopy, hall⟩ := h.archived hget
      rw [hcopy] at harchive
      rw [hget] at hheld
      rw [← some.inj harchive, ← some.inj hheld]
      exact hall
    · refine h.shelved other archived held ?_ hheld
      unfold GcStore.archive at harchive
      split at harchive
      · exact harchive
      · rwa [get_set_of_ne _ _ heq] at harchive

theorem Filed.route (h : store.Filed) (segment : Nat) (eventIds : List String) :
    (store.route segment eventIds).Filed :=
  ⟨h.ids, h.ascending, h.hot_written, h.archived_written, h.below, h.shelved⟩

theorem routed_of_route (harchive : Dict.get store.archives segment = some archived)
    (hid : record.eventId.val ∈ eventIds) (hmem : record ∈ archived) :
    (store.route segment eventIds).Routed record :=
  ⟨segment, archived, (get_foldl_set _ _ _ _).trans (if_pos hid), harchive, hmem⟩

theorem Routed.route (h : store.Filed) (harchive : Dict.get store.archives segment = some archived)
    (hheld : ∀ eventId ∈ eventIds, ∃ record ∈ archived, record.eventId.val = eventId)
    (hwritten : record ∈ store.written) (hrouted : store.Routed record) :
    (store.route segment eventIds).Routed record := by
  obtain ⟨other, held, hroute, hother, hmem⟩ := hrouted
  by_cases hid : record.eventId.val ∈ eventIds
  · obtain ⟨copy, hcopy, heq⟩ := hheld _ hid
    have hsame := h.eq_of_id (h.archived_written segment archived harchive copy hcopy) hwritten heq
    exact routed_of_route harchive hid (hsame ▸ hcopy)
  · exact ⟨other, held, (get_foldl_set _ _ _ _).trans ((if_neg hid).trans hroute), hother, hmem⟩

theorem hot_shelved (segment : Nat) (records : List EventRecord) (eventIds : List String) :
    ((store.archive segment records).route segment eventIds).hot = store.hot :=
  hot_archive segment records

theorem Kept.shelved (h : store.Filed) (hget : Dict.get store.hot segment = some records)
    (hsealed : store.Sealed segment)
    (harchive : Dict.get (store.archive segment records).archives segment = some archived)
    (hheld : ∀ eventId ∈ eventIds, ∃ record ∈ archived, record.eventId.val = eventId)
    (hwritten : record ∈ store.written) (hkept : store.Kept record) :
    ((store.archive segment records).route segment eventIds).Kept record := by
  rcases hkept.archive segment records with hhot | hrouted
  · exact .inl hhot
  · refine .inr (hrouted.route (h.archive hget hsealed) harchive hheld ?_)
    rwa [written_archive]

section Shrink

variable {segment : Nat} {records : List EventRecord} {hot : Dict Nat (List EventRecord)}

theorem Sealed.shrink (hother : store.Sealed other) (hsealed : store.Sealed segment)
    (hsame : ∀ other, other ≠ segment → Dict.get hot other = Dict.get store.hot other) :
    ({ store with hot } : GcStore).Sealed other := by
  have hstays : ∀ number ∈ Dict.keys store.hot, number ≠ segment → number ∈ Dict.keys hot := by
    intro number hnumber hne
    by_contra habsent
    rw [← get_eq_none_iff, hsame number hne, get_eq_none_iff] at habsent
    exact habsent hnumber
  obtain ⟨number, hnumber, hlt⟩ := hother
  obtain ⟨last, hlast, hltlast⟩ := hsealed
  by_cases heq : number = segment
  · exact ⟨last, hstays last hlast (by omega), by omega⟩
  · exact ⟨number, hstays number hnumber heq, hlt⟩

section

variable (h : store.Filed) (hget : Dict.get store.hot segment = some records)
include h hget

theorem Filed.shrink (hsealed : store.Sealed segment) (hascending : Ascending Prod.fst hot)
    (hsame : ∀ other, other ≠ segment → Dict.get hot other = Dict.get store.hot other)
    (hrest : ∀ rest, Dict.get hot segment = some rest → ∀ record ∈ rest, record ∈ records) :
    ({ store with hot } : GcStore).Filed where
  ids := h.ids
  ascending := hascending
  hot_written record hrecord := by
    have hshrunk : Ascending Prod.fst ({ store with hot } : GcStore).hot := hascending
    refine h.hot_written record ((mem_hotRecords h.ascending).mpr ?_)
    rcases (mem_hotRecords hshrunk).mp hrecord with hbase | ⟨other, held, hheld, hmem⟩
    · exact .inl hbase
    · right
      by_cases heq : other = segment
      · subst heq
        exact ⟨other, records, hget, hrest held hheld record hmem⟩
      · exact ⟨other, held, (hsame other heq).symm.trans hheld, hmem⟩
  archived_written := h.archived_written
  below other hmem := (h.below other hmem).shrink hsealed hsame
  shelved other archived held harchive hheld := by
    by_cases heq : other = segment
    · subst heq
      intro record hmem
      exact h.shelved other archived records harchive hget record (hrest held hheld record hmem)
    · exact h.shelved other archived held harchive ((hsame other heq).symm.trans hheld)

theorem Kept.shrink (hascending : Ascending Prod.fst hot)
    (hsame : ∀ other, other ≠ segment → Dict.get hot other = Dict.get store.hot other)
    (hkept : store.Kept record)
    (hgone : record ∈ records → (∃ rest, Dict.get hot segment = some rest ∧ record ∈ rest) ∨
      store.Routed record) : ({ store with hot } : GcStore).Kept record := by
  have hshrunk : Ascending Prod.fst ({ store with hot } : GcStore).hot := hascending
  rcases hkept with hhot | hrouted
  · rcases (mem_hotRecords h.ascending).mp hhot with hbase | ⟨other, held, hheld, hmem⟩
    · exact .inl ((mem_hotRecords hshrunk).mpr (.inl hbase))
    · by_cases heq : other = segment
      · subst heq
        rw [hget] at hheld
        rw [← some.inj hheld] at hmem
        rcases hgone hmem with ⟨rest, hkeep, hin⟩ | hrouted
        · exact .inl ((mem_hotRecords hshrunk).mpr (.inr ⟨other, rest, hkeep, hin⟩))
        · exact .inr hrouted
      · exact .inl ((mem_hotRecords hshrunk).mpr
          (.inr ⟨other, held, (hsame other heq).trans hheld, hmem⟩))
  · exact .inr hrouted

end

theorem get_erase_hot (segment : Nat) (hne : other ≠ segment) :
    Dict.get (Dict.erase store.hot segment) other = Dict.get store.hot other := by
  cases hheld : Dict.get store.hot other with
  | none =>
    rw [get_eq_none_iff] at hheld ⊢
    exact fun hmem => hheld ((filter_sublist.map Prod.fst).subset hmem)
  | some held => exact get_filter_of_pos hheld (by simpa using hne)

theorem erase_ascending (h : Ascending Prod.fst store.hot) (segment : Nat) :
    Ascending Prod.fst (Dict.erase store.hot segment) :=
  h.sublist (filter_sublist.map Prod.fst)

section

variable (h : store.Filed) (hget : Dict.get store.hot segment = some records)

include h hget

theorem Filed.unlink (hsealed : store.Sealed segment) : (store.unlink segment).Filed := by
  have hnone : Dict.get (Dict.erase store.hot segment) segment = none := get_erase_self _ _
  refine h.shrink hget hsealed (erase_ascending h.ascending segment)
    (fun other hne => get_erase_hot segment hne) ?_
  intro rest hheld
  rw [hnone] at hheld
  contradiction

theorem Kept.unlink (hkept : store.Kept record) (hgone : record ∈ records → store.Routed record) :
    (store.unlink segment).Kept record :=
  hkept.shrink h hget (erase_ascending h.ascending segment)
    (fun _ hne => get_erase_hot segment hne) fun hmem => .inr (hgone hmem)

theorem Filed.rewrite (hsealed : store.Sealed segment)
    (hpinned : ∀ record ∈ pinned, record ∈ records) : (store.rewrite segment pinned).Filed := by
  have hself : Dict.get (Dict.set store.hot segment pinned) segment = some pinned :=
    get_set_self _ _ _
  refine h.shrink hget hsealed ?_ (fun other hne => get_set_of_ne _ _ hne) ?_
  · exact keys_set_ascending h.ascending (.inl (mem_keys_of_get hget))
  · intro rest hheld
    rw [hself] at hheld
    cases hheld
    exact hpinned

theorem Kept.rewrite (hkept : store.Kept record)
    (hgone : record ∈ records → record ∈ pinned ∨ store.Routed record) :
    (store.rewrite segment pinned).Kept record := by
  refine hkept.shrink h hget ?_ (fun other hne => get_set_of_ne _ _ hne) fun hmem => ?_
  · exact keys_set_ascending h.ascending (.inl (mem_keys_of_get hget))
  · rcases hgone hmem with hkeep | hrouted
    · exact .inl ⟨pinned, get_set_self _ _ _, hkeep⟩
    · exact .inr hrouted

end

end Shrink

section Take

variable {segment : Nat} {records : List EventRecord} {state : GcState}

theorem get_hot_shelved (eventIds : List String) (hget : Dict.get store.hot segment = some records) :
    Dict.get ((store.archive segment records).route segment eventIds).hot segment = some records := by
  rw [hot_shelved]
  exact hget

theorem sealed_shelved (eventIds : List String) (hsealed : store.Sealed segment) :
    ((store.archive segment records).route segment eventIds).Sealed segment := by
  unfold Sealed
  rw [hot_shelved]
  exact hsealed

section

variable (h : store.Filed) (hget : Dict.get store.hot segment = some records)
    (hsealed : store.Sealed segment)
include h hget hsealed

theorem Filed.moveCold (eventIds : List String) :
    (((store.archive segment records).route segment eventIds).unlink segment).Filed :=
  ((h.archive hget hsealed).route segment eventIds).unlink (get_hot_shelved eventIds hget)
    (sealed_shelved eventIds hsealed)

theorem Kept.moveCold
    (harchive : Dict.get (store.archive segment records).archives segment = some archived)
    (hheld : ∀ eventId ∈ eventIds, ∃ record ∈ archived, record.eventId.val = eventId)
    (hwritten : record ∈ store.written) (hkept : store.Kept record)
    (hgone : record ∈ records → record.eventId.val ∈ eventIds ∧ record ∈ archived) :
    (((store.archive segment records).route segment eventIds).unlink segment).Kept record := by
  have hroute := hkept.shelved h hget hsealed harchive hheld hwritten
  refine hroute.unlink ((h.archive hget hsealed).route segment eventIds)
    (get_hot_shelved eventIds hget) fun hmem => ?_
  exact routed_of_route harchive (hgone hmem).1 (hgone hmem).2

end

theorem exists_archived {archived found : List EventRecord}
    (hheld : ∀ record ∈ records, legible record = true → record ∈ archived)
    (hfound : ∀ record ∈ found, record ∈ records.filter legible) :
    ∀ eventId ∈ idsOf found, ∃ record ∈ archived, record.eventId.val = eventId := by
  intro eventId hid
  obtain ⟨record, hrecord, rfl⟩ := mem_map.mp hid
  obtain ⟨hmem, hline⟩ := mem_filter.mp (hfound record hrecord)
  exact ⟨record, hheld record hmem hline, rfl⟩

section

variable (h : store.Filed) (hvisit : store.visit segment = some (state, records))
include h hvisit

theorem Filed.moved : (store.moved segment records).Filed := by
  obtain ⟨hget, hsealed⟩ := visit_some h.ascending hvisit
  unfold GcStore.moved
  split
  · exact h.unlink hget hsealed
  · exact h.moveCold hget hsealed _

theorem Kept.moved (hwritten : record ∈ store.written) (hkept : store.Kept record)
    (hline : record ∈ records → legible record = true)
    (hdiscard : archivePath store.hotRecords (records.filter legible) = .pureDiscard →
      record ∈ records → store.Routed record) : (store.moved segment records).Kept record := by
  obtain ⟨hget, hsealed⟩ := visit_some h.ascending hvisit
  unfold GcStore.moved
  split
  next hpath =>
    exact hkept.unlink h hget (hdiscard hpath)
  · obtain ⟨archived, harchive, hheld⟩ := h.archived hget
    refine hkept.moveCold h hget hsealed harchive (exists_archived hheld fun _ hmem => hmem)
      hwritten fun hmem => ?_
    exact ⟨mem_map_of_mem (mem_filter.mpr ⟨hmem, hline hmem⟩),
      hheld record hmem (hline hmem)⟩

end

theorem compacted_eq (reachable : List String) : store.compacted segment records reachable =
    ((store.archive segment records).route segment
      (idsOf ((records.filter legible).filter
        (not ∘ isPinned (records.filter legible) reachable)))).rewrite segment
      ((records.filter legible).filter (isPinned (records.filter legible) reachable)) := by
  unfold GcStore.compacted splitPinnedMovable
  rw [partition_eq_filter_filter]

section

variable (h : store.Filed) (hvisit : store.visit segment = some (state, records))
    (reachable : List String)
include h hvisit

theorem Filed.compacted : (store.compacted segment records reachable).Filed := by
  obtain ⟨hget, hsealed⟩ := visit_some h.ascending hvisit
  rw [compacted_eq]
  exact ((h.archive hget hsealed).route segment _).rewrite (get_hot_shelved _ hget)
    (sealed_shelved _ hsealed) fun record hmem =>
      mem_of_mem_filter (mem_of_mem_filter hmem)

theorem Kept.compacted (hwritten : record ∈ store.written) (hkept : store.Kept record)
    (hline : record ∈ records → legible record = true) :
    (store.compacted segment records reachable).Kept record := by
  obtain ⟨hget, hsealed⟩ := visit_some h.ascending hvisit
  obtain ⟨archived, harchive, hheld⟩ := h.archived hget
  rw [compacted_eq]
  have hmoved : ∀ other ∈ (records.filter legible).filter
      (not ∘ isPinned (records.filter legible) reachable), other ∈ records.filter legible :=
    fun _ hmem => mem_of_mem_filter hmem
  have hroute := hkept.shelved h hget hsealed harchive (exists_archived hheld hmoved) hwritten
  refine hroute.rewrite ((h.archive hget hsealed).route segment _) (get_hot_shelved _ hget)
    fun hmem => ?_
  have hfound := mem_filter.mpr ⟨hmem, hline hmem⟩
  by_cases hpin : isPinned (records.filter legible) reachable record = true
  · exact .inl (mem_filter.mpr ⟨hfound, hpin⟩)
  · right
    refine routed_of_route harchive (mem_map_of_mem (mem_filter.mpr ⟨hfound, ?_⟩))
      (hheld record hmem (hline hmem))
    simpa using hpin

end

theorem written_moved : (store.moved segment records).written = store.written := by
  unfold GcStore.moved
  split
  · rfl
  · exact written_archive segment records

theorem written_compacted (reachable : List String) :
    (store.compacted segment records reachable).written = store.written :=
  (congrArg written (compacted_eq reachable)).trans (written_archive segment records)

end Take

theorem step_cases (h : store.step action = some next) :
    (∃ rotates records, action = .write rotates records ∧
      (idsOf (store.written ++ records)).Nodup ∧ next = store.append rotates records) ∨
    (∃ state, action = .begin state ∧ state.log.allRecords = store.hotRecords ∧
      next = { store with run := some state }) ∨
    (∃ segment state records, action = .moveSegment segment ∧
      store.visit segment = some (state, records) ∧
      admitsMove (records.filter legible) state.moveBound.bound state.reachable = true ∧
      next = store.moved segment records) ∨
    (∃ segment state records, action = .compactSegment segment ∧
      store.visit segment = some (state, records) ∧
      admitsCompaction (records.filter legible) state.moveBound.bound state.reachable = true ∧
      next = store.compacted segment records state.reachable) ∨
    (action = .finish ∧ next = { store with run := none }) := by
  cases action with
  | write rotates records =>
    obtain ⟨hids, hnext⟩ := ite_none_right_eq_some.mp h
    exact .inl ⟨rotates, records, rfl, hids, (some.inj hnext).symm⟩
  | begin state =>
    obtain ⟨hstart, hnext⟩ := ite_none_right_eq_some.mp h
    exact .inr (.inl ⟨state, rfl, hstart.2, (some.inj hnext).symm⟩)
  | moveSegment segment =>
    simp only [GcStore.step] at h
    split at h
    · contradiction
    next state records hvisit =>
      obtain ⟨hadmits, hnext⟩ := ite_none_right_eq_some.mp h
      exact .inr (.inr (.inl
        ⟨segment, state, records, rfl, hvisit, hadmits, (some.inj hnext).symm⟩))
  | compactSegment segment =>
    simp only [GcStore.step] at h
    split at h
    · contradiction
    next state records hvisit =>
      obtain ⟨hadmits, hnext⟩ := ite_none_right_eq_some.mp h
      exact .inr (.inr (.inr (.inl
        ⟨segment, state, records, rfl, hvisit, hadmits, (some.inj hnext).symm⟩)))
  | finish => exact .inr (.inr (.inr (.inr ⟨rfl, (some.inj h).symm⟩)))

theorem Filed.step (h : store.Filed) (hnext : store.step action = some next) : next.Filed := by
  obtain ⟨_, _, -, hids, rfl⟩ | ⟨_, -, -, rfl⟩ | ⟨_, _, _, -, hvisit, -, rfl⟩ |
    ⟨_, state, _, -, hvisit, -, rfl⟩ | ⟨-, rfl⟩ := step_cases hnext
  · exact h.append hids
  · exact ⟨h.ids, h.ascending, h.hot_written, h.archived_written, h.below, h.shelved⟩
  · exact h.moved hvisit
  · exact h.compacted hvisit state.reachable
  · exact ⟨h.ids, h.ascending, h.hot_written, h.archived_written, h.below, h.shelved⟩

/-- What happens to a sealed segment: it only shrinks, and what was found in it and goes is in its
archive. -/
structure Shrunk (store next : GcStore) (segment : Nat) : Prop where
  still_sealed : next.Sealed segment
  shelved : ∀ record, store.Shelved segment record → next.Shelved segment record
  rest : ∀ rest, Dict.get next.hot segment = some rest →
    ∃ records, Dict.get store.hot segment = some records ∧ (∀ record ∈ rest, record ∈ records) ∧
      ∀ record ∈ records, legible record = true → record ∈ rest ∨ next.Shelved segment record

theorem Shelved.archive (h : store.Shelved segment record) :
    (store.archive other records).Shelved segment record := by
  obtain ⟨archived, harchive, hmem⟩ := h
  exact ⟨archived, get_archives_archive harchive, hmem⟩

theorem shrunk_of_same (hsealed : next.Sealed segment)
    (hshelved : ∀ record, store.Shelved segment record → next.Shelved segment record)
    (hhot : Dict.get next.hot segment = Dict.get store.hot segment) :
    Shrunk store next segment where
  still_sealed := hsealed
  shelved := hshelved
  rest records hget := by
    rw [hhot] at hget
    exact ⟨records, hget, fun _ hmem => hmem, fun _ hmem _ => .inl hmem⟩

section

variable (h : store.Filed) {state : GcState} (hvisit : store.visit other = some (state, records))
    (hsealed : store.Sealed segment)
include h hvisit hsealed

theorem Shrunk.moved : Shrunk store (store.moved other records) segment := by
  obtain ⟨-, hother⟩ := visit_some h.ascending hvisit
  have hhot : (store.moved other records).hot = Dict.erase store.hot other := by
    unfold GcStore.moved
    split
    · rfl
    · exact congrArg (Dict.erase · other) (hot_archive other records)
  have hstill : (store.moved other records).Sealed segment := by
    unfold Sealed
    rw [hhot]
    exact hsealed.shrink hother fun _ hne => get_erase_hot other hne
  have hshelved : ∀ record, store.Shelved segment record →
      (store.moved other records).Shelved segment record := by
    intro record hmem
    unfold GcStore.moved
    split
    · exact hmem
    · exact hmem.archive
  by_cases heq : segment = other
  · subst heq
    refine ⟨hstill, hshelved, fun rest hget => ?_⟩
    rw [hhot, get_erase_self] at hget
    contradiction
  · exact shrunk_of_same hstill hshelved (hhot ▸ get_erase_hot other heq)

theorem Shrunk.compacted (reachable : List String) :
    Shrunk store (store.compacted other records reachable) segment := by
  obtain ⟨hget, hother⟩ := visit_some h.ascending hvisit
  rw [compacted_eq]
  have hkeys : ∀ next, next ≠ other → Dict.get (Dict.set (store.archive other records).hot other
      ((records.filter legible).filter (isPinned (records.filter legible) reachable))) next =
        Dict.get store.hot next := by
    intro next hne
    rw [hot_archive]
    exact get_set_of_ne _ _ hne
  have hstill := hsealed.shrink hother hkeys
  by_cases heq : segment = other
  · subst heq
    refine ⟨hstill, fun _ hmem => hmem.archive, fun rest hrest => ?_⟩
    obtain ⟨archived, harchive, hheld⟩ := h.archived hget
    cases (get_set_self _ _ _).symm.trans hrest
    refine ⟨records, hget, fun record hmem => mem_of_mem_filter (mem_of_mem_filter hmem),
      fun record hmem hline => .inr ⟨archived, harchive, hheld record hmem hline⟩⟩
  · exact shrunk_of_same hstill (fun _ hmem => hmem.archive) (hkeys segment heq)

end

theorem Shrunk.step (h : store.Filed) (hsealed : store.Sealed segment)
    (hnext : store.step action = some next) : Shrunk store next segment := by
  obtain ⟨rotates, records, -, -, rfl⟩ | ⟨_, -, -, rfl⟩ | ⟨_, _, _, -, hvisit, -, rfl⟩ |
    ⟨_, state, _, -, hvisit, -, rfl⟩ | ⟨-, rfl⟩ := step_cases hnext
  · refine shrunk_of_same (hsealed.append h.ascending rotates records) ?_ ?_
    · unfold Shelved
      rw [archives_append]
      exact fun _ hmem => hmem
    · obtain ⟨number, hnumber, hlt⟩ := hsealed
      exact get_hot_append h.ascending hnumber hlt rotates records
  · exact shrunk_of_same hsealed (fun _ hmem => hmem) rfl
  · exact Shrunk.moved h hvisit hsealed
  · exact Shrunk.compacted h hvisit hsealed state.reachable
  · exact shrunk_of_same hsealed (fun _ hmem => hmem) rfl

theorem written_step (h : store.step action = some next) :
    ∀ record ∈ store.written, record ∈ next.written := by
  intro record hmem
  obtain ⟨rotates, records, -, -, rfl⟩ | ⟨_, -, -, rfl⟩ | ⟨_, _, _, -, -, -, rfl⟩ |
    ⟨_, state, _, -, -, -, rfl⟩ | ⟨-, rfl⟩ := step_cases h
  · rw [written_append]
    exact mem_append_left _ hmem
  · exact hmem
  · rwa [written_moved]
  · rwa [written_compacted]
  · exact hmem

theorem filed_empty : ({} : GcStore).Filed where
  ids := nodup_nil
  ascending := List.Pairwise.nil
  hot_written := by simp [hotRecords]
  archived_written := by simp
  below := by simp [Dict.keys]
  shelved := by simp

end GcStore

end Flowness.Snapshot
