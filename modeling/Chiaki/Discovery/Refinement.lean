import Chiaki.Discovery.HostList

/-!
# The arrays hold the list

The two arrays of the service hold the list of hosts row by row, and every allocated string belongs to one row.
-/

namespace Chiaki.Discovery

/-! ## Strings -/

/-- The allocations of these strings. -/
def allocations (strings : HostString → Option Str) (names : List HostString) : List Nat :=
  names.filterMap fun name => (strings name).map Str.id

theorem allocations_cons (strings : HostString → Option Str) (name : HostString) (names : List HostString) :
    allocations strings (name :: names) = ((strings name).map Str.id).toList ++ allocations strings names := by
  unfold allocations
  cases h : strings name <;> simp [h]

theorem allocations_congr {strings strings' : HostString → Option Str} {names : List HostString}
    (same : ∀ name ∈ names, strings name = strings' name) : allocations strings names = allocations strings' names :=
  List.filterMap_congr fun name member => by rw [same name member]

structure Heap.Sound (heap : Heap) : Prop where
  distinct : heap.live.Nodup
  fresh : ∀ id ∈ heap.live, id < heap.next

theorem Heap.free_ok {heap : Heap} (sound : heap.Sound) {str : Option Str} {rest : List Nat}
    (live : heap.live.Perm ((str.map Str.id).toList ++ rest)) :
    ∃ heap', heap.free str = .ok heap' ∧ heap'.Sound ∧ heap'.live.Perm rest ∧ heap'.next = heap.next := by
  cases str with
  | none => exact ⟨heap, rfl, sound, live, rfl⟩
  | some str =>
      have member : str.id ∈ heap.live := live.mem_iff.mpr (by simp)
      refine ⟨{ heap with live := heap.live.erase str.id }, by simp only [Heap.free, if_pos member],
        ⟨sound.distinct.erase _, fun id h => sound.fresh id (List.mem_of_mem_erase h)⟩, ?_, rfl⟩
      have erased := live.erase str.id
      simpa using erased

theorem Heap.strdup_ok {heap : Heap} (sound : heap.Sound) {rest : List Nat} (live : heap.live.Perm rest) (chars : Bytes)
    (ok : Bool) :
    (heap.strdup chars ok).2.Sound ∧
      (heap.strdup chars ok).2.live.Perm (((heap.strdup chars ok).1.map Str.id).toList ++ rest) := by
  cases ok with
  | false => exact ⟨sound, live⟩
  | true =>
      refine ⟨⟨?_, fun id member => ?_⟩, ?_⟩
      · refine List.nodup_append.mpr ⟨sound.distinct, List.nodup_singleton _, fun a old b last same => ?_⟩
        obtain rfl := List.mem_singleton.mp last
        exact absurd same (sound.fresh a old).ne
      · rcases List.mem_append.mp member with old | last
        · exact Nat.lt_succ_of_lt (sound.fresh id old)
        · obtain rfl := List.mem_singleton.mp last
          exact Nat.lt_succ_self _
      · exact (@List.perm_append_comm _ heap.live [heap.next]).trans (live.cons heap.next)

theorem freeStrings_ok (strings : HostString → Option Str) (names : List HostString) {heap : Heap} (sound : heap.Sound)
    {rest : List Nat} (live : heap.live.Perm (allocations strings names ++ rest)) :
    ∃ heap', freeStrings strings names heap = .ok heap' ∧ heap'.Sound ∧ heap'.live.Perm rest ∧ heap'.next = heap.next := by
  induction names generalizing heap with
  | nil => exact ⟨heap, rfl, sound, live, rfl⟩
  | cons name names ih =>
      rw [allocations_cons, List.append_assoc] at live
      obtain ⟨heap', freed, sound', live', same⟩ := Heap.free_ok sound live
      obtain ⟨heap'', freed', sound'', live'', same'⟩ := ih sound' live'
      refine ⟨heap'', ?_, sound'', live'', same'.trans same⟩
      rw [freeStrings, List.foldlM_cons, freed]
      exact freed'

namespace Service

theorem updateString_ok {heap : Heap} (sound : heap.Sound) {old : Option Str} {rest : List Nat}
    (live : heap.live.Perm ((old.map Str.id).toList ++ rest)) (new : Option Bytes) :
    ∃ str heap', updateString old new true heap = .ok (str, heap', decide (old.map Str.chars ≠ new)) ∧ heap'.Sound ∧
      heap'.live.Perm ((str.map Str.id).toList ++ rest) ∧ str.map Str.chars = new := by
  obtain ⟨freed, hfree, sound', live', -⟩ := Heap.free_ok sound live
  have copied (chars : Bytes) := Heap.strdup_ok sound' live' chars true
  cases old with
  | none =>
      cases new with
      | none => exact ⟨none, heap, by simp [updateString], sound, live, rfl⟩
      | some chars =>
          refine ⟨_, _, ?_, (copied chars).1, (copied chars).2, rfl⟩
          simp [updateString, hfree, ok_bind, pure, Except.pure]
  | some str =>
      cases new with
      | none =>
          refine ⟨none, freed, ?_, sound', live', rfl⟩
          simp [updateString, hfree, ok_bind, pure, Except.pure]
      | some chars =>
          by_cases same : str.chars = chars
          · exact ⟨some str, heap, by simp [updateString, same], sound, live, by simp [same]⟩
          · refine ⟨_, _, ?_, (copied chars).1, (copied chars).2, rfl⟩
            simp [updateString, same, hfree, ok_bind, pure, Except.pure]

theorem updateStrings_ok {heap : Heap} (sound : heap.Sound) (new : HostString → Option Bytes) {names : List HostString}
    (nodup : names.Nodup) {strings : HostString → Option Str} {rest : List Nat}
    (live : heap.live.Perm (allocations strings names ++ rest)) (change : Bool) {copies : HostString → Bool}
    (memory : ∀ name, copies name = true) :
    ∃ strings' heap', updateStrings new copies names strings heap change =
        .ok (strings', heap', change || names.any fun name => decide ((strings name).map Str.chars ≠ new name)) ∧
      heap'.Sound ∧ heap'.live.Perm (allocations strings' names ++ rest) ∧
      (∀ name ∉ names, strings' name = strings name) ∧ ∀ name ∈ names, (strings' name).map Str.chars = new name := by
  induction names generalizing strings heap change rest with
  | nil => exact ⟨strings, heap, by simp [updateStrings, pure, Except.pure], sound, live, by simp, by simp⟩
  | cons name names ih =>
      obtain ⟨fresh, nodup⟩ := List.nodup_cons.mp nodup
      rw [allocations_cons, List.append_assoc] at live
      obtain ⟨str, heap', hok, sound', live', hstr⟩ := updateString_ok sound live (new name)
      have others : ∀ other ∈ names, Function.update strings name str other = strings other := by
        intro other member
        exact Function.update_of_ne (fun same : other = name => fresh (same ▸ member)) _ _
      have moved : heap'.live.Perm (allocations (Function.update strings name str) names ++
          ((str.map Str.id).toList ++ rest)) := by
        rw [allocations_congr others]
        refine live'.trans ?_
        rw [← List.append_assoc, ← List.append_assoc]
        exact List.perm_append_comm.append_right rest
      obtain ⟨strings', heap'', hrest, sound'', live'', kept, updated⟩ := ih sound' nodup moved
        (change || decide ((strings name).map Str.chars ≠ new name))
      have here : strings' name = str := by rw [kept name fresh, Function.update_self]
      refine ⟨strings', heap'', ?_, sound'', ?_, fun other outside => ?_, fun other member => ?_⟩
      · have same : (names.any fun other => decide ((Function.update strings name str other).map Str.chars ≠ new other)) =
            names.any fun other => decide ((strings other).map Str.chars ≠ new other) := by
          rw [Bool.eq_iff_iff, List.any_eq_true, List.any_eq_true]
          exact exists_congr fun other => and_congr_right fun member => by rw [others other member]
        rw [same] at hrest
        rw [← memory name] at hok
        rw [updateStrings, List.foldlM_cons, List.any_cons, ← Bool.or_assoc, ← hrest]
        dsimp only
        rw [hok]
        rfl
      · rw [allocations_cons, here, List.append_assoc]
        refine live''.trans ?_
        rw [← List.append_assoc, ← List.append_assoc]
        exact List.perm_append_comm.append_right rest
      · rw [kept other fun member => outside (List.mem_cons_of_mem _ member),
          Function.update_of_ne fun same : other = name => outside (same ▸ List.mem_cons_self)]
      · rcases List.mem_cons.mp member with rfl | member
        · rw [here, hstr]
        · exact updated other member

/-! ## The arrays -/

abbrev Row := Host Str × Nat

def owned (rows : List Row) : List Nat := rows.flatMap fun row => allocations row.1.strings HostString.all

/-- The arrays hold these rows, and all that is allocated belongs to them. -/
structure Holds (s : Service) (rows : List Row) : Prop where
  hosts : ∃ junk, s.hosts = rows.map Prod.fst ++ junk
  infos : ∃ junk, s.hostDiscoveryInfos = rows.map Prod.snd ++ junk
  count : s.hostsCount = rows.length
  hostsSize : s.hosts.length = s.options.hostsMax
  infosSize : s.hostDiscoveryInfos.length = s.options.hostsMax
  heap : s.heap.Sound
  live : s.heap.live.Perm (owned rows)

variable {s : Service} {rows : List Row}

theorem init_holds (options : Options) : Holds (init options) [] where
  hosts := ⟨_, rfl⟩
  infos := ⟨_, rfl⟩
  count := rfl
  hostsSize := List.length_replicate
  infosSize := List.length_replicate
  heap := ⟨List.nodup_nil, by simp [init]⟩
  live := List.Perm.refl []

theorem Holds.take_hosts (holds : Holds s rows) : s.hosts.take s.hostsCount = rows.map Prod.fst := by
  obtain ⟨junk, hosts⟩ := holds.hosts
  rw [hosts, holds.count, List.take_left' (List.length_map _)]

theorem Holds.take_infos (holds : Holds s rows) : s.hostDiscoveryInfos.take s.hostsCount = rows.map Prod.snd := by
  obtain ⟨junk, infos⟩ := holds.infos
  rw [infos, holds.count, List.take_left' (List.length_map _)]

theorem Holds.reportState (holds : Holds s rows) : s.reportState = rows.map fun row => row.1.visible := by
  rw [Service.reportState, holds.take_hosts, List.map_map]
  rfl

theorem Holds.fits (holds : Holds s rows) : rows.length ≤ s.options.hostsMax := by
  obtain ⟨junk, hosts⟩ := holds.hosts
  have size := holds.hostsSize
  rw [hosts, List.length_append, List.length_map] at size
  omega

theorem owned_append (rows rows' : List Row) : owned (rows ++ rows') = owned rows ++ owned rows' :=
  List.flatMap_append

theorem Holds.fini (holds : Holds s rows) : ∃ heap, s.fini = .ok heap ∧ heap.live = [] := by
  have all : ∀ (rows : List Row) (heap : Heap), heap.Sound → heap.live.Perm (owned rows) →
      ∃ heap', (rows.map Prod.fst).foldlM (fun heap host => freeStrings host.strings HostString.all heap) heap = .ok heap' ∧
        heap'.live = [] := by
    intro rows
    induction rows with
    | nil => exact fun heap _ live => ⟨heap, rfl, live.eq_nil⟩
    | cons row rows ih =>
        intro heap sound live
        obtain ⟨heap', freed, sound', live', -⟩ := freeStrings_ok row.1.strings HostString.all sound live
        obtain ⟨heap'', rest, empty⟩ := ih heap' sound' live'
        refine ⟨heap'', ?_, empty⟩
        rw [List.map_cons, List.foldlM_cons, freed]
        exact rest
  rw [Service.fini, holds.take_hosts]
  exact all rows s.heap holds.heap holds.live

theorem visible_eq_iff (slot : Host Str) (host : Host Bytes) :
    slot.visible = host ↔ slot.state = host.state ∧ slot.hostRequestPort = host.hostRequestPort ∧
      ∀ name, (slot.strings name).map Str.chars = host.strings name := by
  obtain ⟨state, port, strings⟩ := host
  simp only [Host.visible, Host.mk.injEq, funext_iff]

theorem updateHost_ok {before after : List Row} {row : Row} (holds : Holds s (before ++ row :: after)) (host : Host Bytes)
    {copies : HostString → Bool} (memory : ∀ name, copies name = true) (change : Bool) :
    ∃ s' slot, s.updateHost before.length host copies change =
        .ok (s', if change = true ∨ row.1.visible ≠ host then [s'.reportState] else []) ∧
      slot.visible = host ∧ s'.options = s.options ∧ s'.pingIndex = s.pingIndex ∧
      Holds s' (before ++ (slot, s.pingIndex) :: after) := by
  obtain ⟨junk, hosts⟩ := holds.hosts
  obtain ⟨junk', infos⟩ := holds.infos
  rw [List.map_append, List.map_cons, List.append_assoc, List.cons_append] at hosts infos
  have hslot : s.hosts[before.length]? = some row.1 := by
    rw [hosts, List.getElem?_append_right (by simp)]
    simp
  have hinfo : s.hostDiscoveryInfos[before.length]? = some row.2 := by
    rw [infos, List.getElem?_append_right (by simp)]
    simp
  have live : s.heap.live.Perm (allocations row.1.strings HostString.all ++ (owned before ++ owned after)) := by
    refine holds.live.trans ?_
    rw [owned_append]
    exact List.perm_append_comm_assoc _ _ _
  obtain ⟨strings, heap, updated, sound, live', -, new⟩ :=
    updateStrings_ok holds.heap host.strings HostString.nodup_all live
      (change || row.1.state != host.state || row.1.hostRequestPort != host.hostRequestPort) memory
  have flag : (change || row.1.state != host.state || row.1.hostRequestPort != host.hostRequestPort ||
      HostString.all.any fun name => decide ((row.1.strings name).map Str.chars ≠ host.strings name)) = true ↔
      change = true ∨ row.1.visible ≠ host := by
    rw [Ne, visible_eq_iff]
    simp only [Bool.or_eq_true, bne_iff_ne, List.any_eq_true, HostString.mem_all, true_and, decide_eq_true_eq,
      not_and_or, not_forall, or_assoc]
  refine ⟨{ s with
    hostDiscoveryInfos := s.hostDiscoveryInfos.set before.length s.pingIndex
    hosts := s.hosts.set before.length ⟨host.state, host.hostRequestPort, strings⟩
    heap := heap }, ⟨host.state, host.hostRequestPort, strings⟩, ?_, ?_, rfl, rfl, ?_⟩
  · simp only [updateHost, hinfo, hslot, inBounds_some, ok_bind, updated]
    simp only [flag]
    rfl
  · exact (visible_eq_iff _ _).mpr ⟨rfl, rfl, fun name => new name (HostString.mem_all name)⟩
  · refine ⟨⟨junk, ?_⟩, ⟨junk', ?_⟩, ?_, ?_, ?_, sound, ?_⟩
    · rw [hosts]
      simp
    · rw [infos]
      simp
    · rw [holds.count]
      simp
    · rw [List.length_set]
      exact holds.hostsSize
    · rw [List.length_set]
      exact holds.infosSize
    · refine live'.trans ?_
      rw [owned_append]
      exact List.perm_append_comm_assoc _ _ _

/-! ## Answers -/

theorem Holds.grow (holds : Holds s rows) (room : s.hostsCount ≠ s.options.hostsMax) :
    ∃ last, s.hosts[s.hostsCount]?.isSome ∧
      Holds { s with hostsCount := s.hostsCount + 1, hosts := s.hosts.set s.hostsCount zeroHost } (rows ++ [(zeroHost, last)]) := by
  obtain ⟨junk, hosts⟩ := holds.hosts
  obtain ⟨junk', infos⟩ := holds.infos
  have fits := holds.fits
  have size := holds.hostsSize
  have size' := holds.infosSize
  have count := holds.count
  rw [hosts, List.length_append, List.length_map] at size
  rw [infos, List.length_append, List.length_map] at size'
  obtain ⟨old, junk, rfl⟩ := List.exists_cons_of_length_pos (show 0 < junk.length by omega)
  obtain ⟨last, junk', rfl⟩ := List.exists_cons_of_length_pos (show 0 < junk'.length by omega)
  refine ⟨last, ?_, ⟨junk, ?_⟩, ⟨junk', ?_⟩, ?_, ?_, holds.infosSize, holds.heap, ?_⟩
  · rw [hosts, count, List.getElem?_append_right (by simp)]
    simp
  · rw [hosts, count]
    simp
  · rw [infos]
    simp
  · rw [count, List.length_append, List.length_singleton]
  · rw [List.length_set]
    exact holds.hostsSize
  · rw [owned_append]
    have none_ : owned [((zeroHost : Host Str), last)] = [] := rfl
    rw [none_, List.append_nil]
    exact holds.live

def known (row : Row) : Known := ⟨row.1.visible, row.2⟩

/-- The arrays hold this list of hosts. -/
structure Shows (s : Service) (l : HostList) : Prop where
  pings : s.pingIndex = l.pings
  rows : ∃ rows, Holds s rows ∧ rows.map known = l.known

theorem findHost_eq (holds : Holds s rows) (hostId : Bytes) :
    s.findHost hostId = rows.findIdx? fun row => row.1.visible.strings .hostId == some hostId := by
  rw [findHost, holds.take_hosts, List.findIdx?_map]
  rfl

theorem Holds.shows (holds : Holds s rows) {l : HostList} (same : rows.map known = l.known) :
    s.reportState = l.visible := by
  rw [holds.reportState, HostList.visible, ← same, List.map_map]
  rfl

theorem report_eq {l l' : HostList} (holds : Holds s rows) (same : rows.map known = l'.known) {changed : Prop}
    [Decidable changed] (changes : changed ↔ l'.visible ≠ l.visible) :
    (if changed then [s.reportState] else []) = if l'.visible = l.visible then [] else [l'.visible] := by
  rw [holds.shows same]
  by_cases equal : l'.visible = l.visible
  · rw [if_neg fun h => changes.mp h equal, if_pos equal]
  · rw [if_pos (changes.mpr equal), if_neg equal]

theorem new_host {l : HostList} (pings : s.pingIndex = l.pings) (holds : Holds s rows) (hrows : rows.map known = l.known)
    (room : s.hostsCount ≠ s.options.hostsMax) (host : Host Bytes) {copies : HostString → Bool}
    (memory : ∀ name, copies name = true) {l' : HostList} (hl' : l' = { l with known := l.known ++ [⟨host, l.pings⟩] }) :
    ∃ s', (do
        let _ ← inBounds s.hosts[s.hostsCount]?
        let index := s.hostsCount
        let s := { s with hostsCount := s.hostsCount + 1, hosts := s.hosts.set index zeroHost }
        s.updateHost index host copies true : Checked _) =
      .ok (s', if l'.visible = l.visible then [] else [l'.visible]) ∧ Shows s' l' ∧ s'.options = s.options := by
  obtain ⟨last, present, holds'⟩ := holds.grow room
  obtain ⟨old, hold⟩ := Option.isSome_iff_exists.mp present
  obtain ⟨s', slot, hok, visible, options, pings', holds''⟩ := updateHost_ok holds' host memory true
  rw [← holds.count] at hok
  have same : (rows ++ [(slot, s.pingIndex)]).map known = l'.known := by
    rw [hl', List.map_append, hrows, List.map_singleton, known, visible, pings]
  refine ⟨s', ?_, ⟨?_, _, holds'', same⟩, options⟩
  · rw [hold, inBounds_some, ok_bind]
    dsimp only
    rw [hok]
    congr 2
    apply report_eq holds'' same
    simp only [true_or, true_iff, hl', HostList.visible, List.map_append]
    intro equal
    have lengths := congrArg List.length equal
    simp at lengths
  · rw [pings', hl']
    exact pings

theorem known_host {l : HostList} (pings : s.pingIndex = l.pings) {before after : List Row} {row : Row}
    (holds : Holds s (before ++ row :: after)) (hrows : (before ++ row :: after).map known = l.known)
    (distinct : l.ids.Nodup) (host : Host Bytes) {hostId : Bytes} (found : row.1.visible.strings .hostId = some hostId)
    {copies : HostString → Bool} (memory : ∀ name, copies name = true) {l' : HostList}
    (hl' : l' = { l with known := l.known.map fun k => if k.host.strings .hostId = some hostId then ⟨host, l.pings⟩ else k }) :
    ∃ s', s.updateHost before.length host copies false =
      .ok (s', if l'.visible = l.visible then [] else [l'.visible]) ∧ Shows s' l' ∧ s'.options = s.options := by
  obtain ⟨s', slot, hok, visible, options, pings', holds'⟩ := updateHost_ok holds host memory false
  have others : ∀ row' ∈ before ++ after, row'.1.visible.strings .hostId ≠ some hostId := by
    rw [HostList.ids, ← hrows, List.map_map, List.map_append, List.map_cons] at distinct
    have split := (List.perm_middle.nodup_iff).mp distinct
    rw [← List.map_append, List.nodup_cons] at split
    intro row' member same
    exact split.1 (List.mem_map.mpr ⟨row', member, by simp [known, same, found]⟩)
  have keep : ∀ rows' : List Row, (∀ row' ∈ rows', row'.1.visible.strings .hostId ≠ some hostId) →
      (rows'.map known).map (fun k => if k.host.strings .hostId = some hostId then (⟨host, l.pings⟩ : Known) else k) =
        rows'.map known := by
    intro rows' different
    rw [List.map_map]
    exact List.map_congr_left fun row' member => if_neg (different row' member)
  have same : (before ++ (slot, s.pingIndex) :: after).map known = l'.known := by
    rw [hl', ← hrows]
    simp only [List.map_append, List.map_cons]
    rw [keep before fun row' member => others row' (List.mem_append_left _ member),
      keep after fun row' member => others row' (List.mem_append_right _ member)]
    simp only [known, found, if_true, visible, pings]
  refine ⟨s', ?_, ⟨?_, _, holds', same⟩, options⟩
  · rw [hok]
    congr 2
    apply report_eq holds' same
    rw [HostList.visible, HostList.visible, ← same, ← hrows]
    simp [known, visible, eq_comm]
  · rw [pings', hl']
    exact pings

theorem hostReceived_ok {l : HostList} (shows : Shows s l) (sound : l.Sound s.options.hostsMax) (host : Host Bytes)
    {copies : HostString → Bool} (memory : ∀ name, copies name = true) :
    ∃ s', s.hostReceived host copies = .ok (s', (l.step s.options (.hostReceived host copies)).2) ∧
      Shows s' (l.heard s.options.hostsMax host) ∧ s'.options = s.options := by
  obtain ⟨pings, rows, holds, hrows⟩ := shows
  have unchanged {l' : HostList} (h : l' = l) : (if l'.visible = l.visible then [] else [l'.visible]) = [] := by
    rw [h, if_pos rfl]
  have count : s.hostsCount = l.known.length := by rw [holds.count, ← hrows, List.length_map]
  unfold hostReceived HostList.step HostList.next
  cases named : host.strings .hostId with
  | none =>
      have same : l.heard s.options.hostsMax host = l := by rw [HostList.heard, named]
      refine ⟨s, by rw [unchanged same], ?_, rfl⟩
      rw [same]
      exact ⟨pings, rows, holds, hrows⟩
  | some hostId =>
      dsimp only
      rw [findHost_eq holds]
      cases hindex : rows.findIdx? fun row => row.1.visible.strings .hostId == some hostId with
      | none =>
          have new : some hostId ∉ l.ids := by
            rw [HostList.ids, ← hrows, List.map_map]
            intro member
            obtain ⟨row, member, same⟩ := List.mem_map.mp member
            have other := List.findIdx?_eq_none_iff.mp hindex row member
            simp [known] at same
            simp [same] at other
          dsimp only
          split
          · rename_i full
            have same : l.heard s.options.hostsMax host = l := by
              simp only [HostList.heard, named, if_neg new, if_pos (count.symm.trans full)]
            refine ⟨s, by rw [unchanged same], ?_, rfl⟩
            rw [same]
            exact ⟨pings, rows, holds, hrows⟩
          · rename_i room
            apply new_host pings holds hrows room host memory
            simp only [HostList.heard, named, if_neg new, if_neg (count ▸ room)]
      | some index =>
          obtain ⟨bound, isHost, -⟩ := List.findIdx?_eq_some_iff_getElem.mp hindex
          have split : rows = rows.take index ++ rows[index] :: rows.drop (index + 1) := by
            rw [← List.drop_eq_getElem_cons bound, List.take_append_drop]
          have position : index = (rows.take index).length := by
            rw [List.length_take, Nat.min_eq_left bound.le]
          have isKnown : some hostId ∈ l.ids := by
            rw [HostList.ids, ← hrows, List.map_map]
            exact List.mem_map.mpr ⟨rows[index], List.getElem_mem bound, by simpa [known] using isHost⟩
          rw [split] at holds hrows
          dsimp only
          conv in s.updateHost index => rw [position]
          apply known_host pings holds hrows sound.distinct host (by simpa using isHost) memory
          simp only [HostList.heard, named, if_pos isKnown]

/-! ## Pings -/

theorem Holds.info {kept rest : List Row} {row : Row} (holds : Holds s (kept ++ row :: rest)) :
    s.hostDiscoveryInfos[kept.length]? = some row.2 := by
  obtain ⟨junk, infos⟩ := holds.infos
  rw [infos, List.map_append, List.append_assoc, List.getElem?_append_right (by simp)]
  simp

theorem Holds.host {kept rest : List Row} {row : Row} (holds : Holds s (kept ++ row :: rest)) :
    s.hosts[kept.length]? = some row.1 := by
  obtain ⟨junk, hosts⟩ := holds.hosts
  rw [hosts, List.map_append, List.append_assoc, List.getElem?_append_right (by simp)]
  simp

/-- `last_ping_index + host_drop_pings >= ping_index`, in 64 bits. -/
def stays (hostDropPings pingIndex : Nat) (row : Row) : Bool :=
  (row.2 + hostDropPings) % 2 ^ 64 ≥ pingIndex

/-- A host whose time is over is freed, and what stands behind it moves down. -/
theorem dropFrom_old {kept rest : List Row} {row : Row} (holds : Holds s (kept ++ row :: rest))
    (past : stays s.options.hostDropPings s.pingIndex row = false) (left : Nat) (change : Bool) :
    ∃ s', dropFrom (left + 1) kept.length s change = dropFrom left kept.length s' true ∧ Holds s' (kept ++ rest) ∧
      s'.options = s.options ∧ s'.pingIndex = s.pingIndex := by
  have live : s.heap.live.Perm (allocations row.1.strings HostString.all ++ owned (kept ++ rest)) := by
    refine holds.live.trans ?_
    rw [owned_append, owned_append]
    exact List.perm_append_comm_assoc _ _ _
  obtain ⟨heap, freed, sound, live', -⟩ := freeStrings_ok _ _ holds.heap live
  have entered : dropFrom (left + 1) kept.length s change =
      if kept.length < s.hostsCount - 1 then do
        let hostDiscoveryInfos ← inBounds (Memory.move s.hostDiscoveryInfos kept.length (kept.length + 1) (s.hostsCount - kept.length - 1))
        let hosts ← inBounds (Memory.move s.hosts kept.length (kept.length + 1) (s.hostsCount - kept.length - 1))
        let s := { s with hosts := hosts, hostDiscoveryInfos := hostDiscoveryInfos }
        dropFrom left kept.length { s with hostsCount := s.hostsCount - 1, heap := heap } true
      else dropFrom left kept.length { s with hostsCount := s.hostsCount - 1, heap := heap } true := by
    rw [dropFrom, holds.info, inBounds_some, ok_bind, if_neg (of_decide_eq_false past), holds.host, inBounds_some, ok_bind, freed, ok_bind]
  obtain ⟨junk, hosts⟩ := holds.hosts
  obtain ⟨junk', infos⟩ := holds.infos
  have count := holds.count
  rw [List.map_append, List.map_cons, List.append_assoc, List.cons_append] at hosts infos
  rw [List.length_append, List.length_cons] at count
  have hostsSize := holds.hostsSize
  have infosSize := holds.infosSize
  have count' : s.hostsCount - 1 = (kept ++ rest).length := by
    rw [List.length_append]
    omega
  rw [entered]
  split
  · obtain ⟨hostsJunk, hmove⟩ := Memory.move_down (kept.map Prod.fst) row.1 (rest.map Prod.fst) junk
    obtain ⟨infosJunk, imove⟩ := Memory.move_down (kept.map Prod.snd) row.2 (rest.map Prod.snd) junk'
    have behind : s.hostsCount - kept.length - 1 = rest.length := by omega
    rw [← hosts, List.length_map, List.length_map, ← behind] at hmove
    rw [← infos, List.length_map, List.length_map, ← behind] at imove
    have hlength := Memory.length_of_move hmove
    have ilength := Memory.length_of_move imove
    rw [imove, hmove]
    refine ⟨_, rfl, ⟨⟨hostsJunk, ?_⟩, ⟨infosJunk, ?_⟩, count', hlength.trans hostsSize, ilength.trans infosSize,
      sound, live'⟩, rfl, rfl⟩
    · rw [List.map_append, List.append_assoc]
    · rw [List.map_append, List.append_assoc]
  · obtain rfl : rest = [] := List.eq_nil_of_length_eq_zero (by omega)
    refine ⟨_, rfl, ⟨⟨row.1 :: junk, ?_⟩, ⟨row.2 :: junk', ?_⟩, count', hostsSize, infosSize, sound, live'⟩, rfl, rfl⟩
    · rw [List.append_nil]
      exact hosts
    · rw [List.append_nil]
      exact infos

theorem dropFrom_ok {kept rest : List Row} (holds : Holds s (kept ++ rest)) (change : Bool) :
    ∃ s', dropFrom rest.length kept.length s change =
        .ok (s', change || rest.any fun row => !stays s.options.hostDropPings s.pingIndex row) ∧
      Holds s' (kept ++ rest.filter (stays s.options.hostDropPings s.pingIndex)) ∧
      s'.options = s.options ∧ s'.pingIndex = s.pingIndex := by
  induction rest generalizing kept s change with
  | nil => exact ⟨s, by simp [dropFrom], holds, rfl, rfl⟩
  | cons row rest ih =>
      cases past : stays s.options.hostDropPings s.pingIndex row with
      | true =>
          obtain ⟨s', hok, holds', same⟩ := @ih s (kept ++ [row]) (by simpa using holds) change
          refine ⟨s', ?_, by simpa [past] using holds', same⟩
          rw [List.length_cons, dropFrom, holds.info, inBounds_some, ok_bind, if_pos (of_decide_eq_true past)]
          simpa [past] using hok
      | false =>
          obtain ⟨s', entered, holds', options, pings⟩ := dropFrom_old holds past rest.length change
          obtain ⟨s'', hok, holds'', options', pings'⟩ := ih holds' true
          rw [options, pings] at hok holds''
          refine ⟨s'', ?_, by simpa [past] using holds'', options'.trans options, pings'.trans pings⟩
          rw [List.length_cons, entered, hok]
          simp [past]

/-- No sum of `discovery_service_drop_old_hosts` leaves 64 bits, and `strdup` always finds memory. -/
def Fits (s : Service) : Input → Prop
  | .hostReceived _ copies => ∀ name, copies name = true
  | .ping => s.pingIndex + 1 < 2 ^ 64 ∧
      ∀ last ∈ s.hostDiscoveryInfos.take s.hostsCount, last + s.options.hostDropPings < 2 ^ 64

instance (s : Service) (i : Input) : Decidable (Fits s i) :=
  match i with
  | .hostReceived _ copies => inferInstanceAs (Decidable (∀ name, copies name = true))
  | .ping => inferInstanceAs (Decidable (_ ∧ _))

theorem ping_ok {l : HostList} (shows : Shows s l) (fits : Fits s .ping) :
    ∃ s', s.ping = .ok (s', (l.step s.options .ping).2) ∧ Shows s' (l.pinged s.options.hostDropPings) ∧
      s'.options = s.options := by
  obtain ⟨pings, rows, holds, hrows⟩ := shows
  obtain ⟨index, sums⟩ := fits
  rw [holds.take_infos] at sums
  have holds' : Holds { s with pingIndex := (s.pingIndex + 1) % 2 ^ 64 } ([] ++ rows) :=
    ⟨holds.hosts, holds.infos, holds.count, holds.hostsSize, holds.infosSize, holds.heap, holds.live⟩
  obtain ⟨s', hok, holds'', options, pings'⟩ := dropFrom_ok holds' false
  have kept : ∀ row ∈ rows, stays s.options.hostDropPings ((s.pingIndex + 1) % 2 ^ 64) row =
      decide (l.pings + 1 ≤ (known row).last + s.options.hostDropPings) := by
    intro row member
    rw [stays, Nat.mod_eq_of_lt (sums row.2 (List.mem_map_of_mem member)), Nat.mod_eq_of_lt index, pings]
    rfl
  have same : (rows.filter (stays s.options.hostDropPings ((s.pingIndex + 1) % 2 ^ 64))).map known =
      (l.pinged s.options.hostDropPings).known := by
    rw [HostList.pinged, ← hrows, List.filter_map]
    congr 1
    exact List.filter_congr kept
  refine ⟨s', ?_, ⟨?_, _, holds'', same⟩, options⟩
  · simp only [ping, holds.count]
    simp only [List.length_nil, holds.count, Bool.false_or] at hok
    rw [hok, ok_bind]
    congr 2
    apply report_eq holds'' same
    rw [HostList.visible, HostList.visible, ← same, ← hrows, List.any_eq_true]
    constructor
    · rintro ⟨row, member, gone⟩ equal
      have lengths := congrArg List.length equal
      simp only [List.length_map] at lengths
      have all := List.length_filter_eq_length_iff.mp lengths row member
      rw [all] at gone
      cases gone
    · intro differs
      by_contra none_
      apply differs
      rw [List.filter_eq_self.mpr]
      intro row member
      by_contra gone
      exact none_ ⟨row, member, by simpa using gone⟩
  · rw [pings', HostList.pinged, ← pings]
    exact Nat.mod_eq_of_lt index

/-! ## Runs -/

/-- The arrays of the service as the claims about them speak of them. -/
structure Lists (s : Service) (l : HostList) : Prop where
  hosts : (s.hosts.take s.hostsCount).map Host.visible = l.visible
  infos : s.hostDiscoveryInfos.take s.hostsCount = l.known.map Known.last
  count : s.hostsCount = l.known.length
  pings : s.pingIndex = l.pings
  sound : l.Sound s.options.hostsMax
  /-- Every allocated string is that of one host in the list. -/
  owned : s.heap.live.Perm ((s.hosts.take s.hostsCount).flatMap fun host => allocations host.strings HostString.all)
  distinct : s.heap.live.Nodup
  /-- In the end every string is freed, each once. -/
  fini : ∃ heap, s.fini = .ok heap ∧ heap.live = []

theorem Shows.lists {l : HostList} (shows : Shows s l) (sound : l.Sound s.options.hostsMax) : Lists s l := by
  obtain ⟨pings, rows, holds, hrows⟩ := shows
  refine ⟨holds.shows hrows, ?_, ?_, pings, sound, ?_, holds.heap.distinct, holds.fini⟩
  · rw [holds.take_infos, ← hrows, List.map_map]
    rfl
  · rw [holds.count, ← hrows, List.length_map]
  · rw [holds.take_hosts, List.flatMap_map]
    exact holds.live

theorem lists_hosts (options : Options) (inputs : List Input) (fits : Machine.Along step Fits (init options) inputs) :
    (∃ s, Machine.run step (init options) inputs =
        .ok (s, (Machine.runTotal (HostList.step options) ⟨[], 0⟩ inputs).2) ∧ Lists s (HostList.after options inputs)) ∧
      ∀ before host copies later hostId, inputs = before ++ .hostReceived host copies :: later →
        host.strings .hostId = some hostId →
        some hostId ∈ (HostList.after options before).ids ∨
          (HostList.after options before).known.length ≠ options.hostsMax →
        (∀ i ∈ later, HostList.answers hostId i = false) →
        (HostList.after options inputs).Only hostId ⟨host, (HostList.after options before).pings⟩
          (later.countP HostList.isPing ≤ options.hostDropPings) := by
  constructor
  · obtain ⟨s, ran, shows, sound, -⟩ : ∃ s, Machine.run step (init options) inputs =
        .ok (s, (Machine.runTotal (HostList.step options) ⟨[], 0⟩ inputs).2) ∧
          Shows s (Machine.runTotal (HostList.step options) ⟨[], 0⟩ inputs).1 ∧
          (Machine.runTotal (HostList.step options) ⟨[], 0⟩ inputs).1.Sound s.options.hostsMax ∧ s.options = options := by
      apply Machine.run_simulation (R := fun s l => Shows s l ∧ l.Sound s.options.hostsMax ∧ s.options = options) _
        ⟨⟨rfl, [], init_holds options, rfl⟩, HostList.Sound.nil _, rfl⟩ fits
      rintro s l i ⟨shows, sound, rfl⟩ fits
      cases i with
      | hostReceived host copies =>
          obtain ⟨s', hok, shows', same⟩ := hostReceived_ok shows sound host fits
          exact ⟨s', hok, shows', by rw [same]; exact sound.heard host, same⟩
      | ping =>
          obtain ⟨s', hok, shows', same⟩ := ping_ok shows fits
          exact ⟨s', hok, shows', by rw [same]; exact sound.pinged _, same⟩
    have lists := shows.lists sound
    rw [Machine.runTotal_fst] at lists
    exact ⟨s, ran, lists⟩
  · rintro before host copies later hostId rfl named room quiet
    exact HostList.after_answer named room quiet

def console : Host Bytes := ⟨.ready, 997, fun name => if name = .hostId then some [49] else none⟩

theorem lists_hosts_console :
    (∃ s, Machine.run step (init ⟨2, 3⟩) [.hostReceived console fun _ => true, .ping] =
        .ok (s, (Machine.runTotal (HostList.step ⟨2, 3⟩) ⟨[], 0⟩ [.hostReceived console fun _ => true, .ping]).2) ∧
        Lists s (HostList.after ⟨2, 3⟩ [.hostReceived console fun _ => true, .ping])) ∧
      ∀ before host copies later hostId,
        [.hostReceived console fun _ => true, .ping] = before ++ .hostReceived host copies :: later →
        host.strings .hostId = some hostId →
        some hostId ∈ (HostList.after ⟨2, 3⟩ before).ids ∨ (HostList.after ⟨2, 3⟩ before).known.length ≠ 2 →
        (∀ i ∈ later, HostList.answers hostId i = false) →
        (HostList.after ⟨2, 3⟩ [.hostReceived console fun _ => true, .ping]).Only hostId
          ⟨host, (HostList.after ⟨2, 3⟩ before).pings⟩ (later.countP HostList.isPing ≤ 3) :=
  lists_hosts ⟨2, 3⟩ [.hostReceived console fun _ => true, .ping] (by decide +kernel)

/-- With the largest `host_drop_pings` a host is dropped by the next ping. -/
theorem not_lists_hosts :
    ((Machine.run step (init ⟨1, 2 ^ 64 - 1⟩) [.ping, .hostReceived console fun _ => true, .ping]).map
        fun r => r.1.reportState) = .ok [] ∧
      (HostList.after ⟨1, 2 ^ 64 - 1⟩ [.ping, .hostReceived console fun _ => true, .ping]).visible = [console] := by
  decide +kernel

end Service

end Chiaki.Discovery
