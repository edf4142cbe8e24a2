import ChainEconomy.Cli.Program
import ChainEconomy.Proofs.Reachable
import ChainEconomy.Proofs.StableOrder
import ChainEconomy.Proofs.ValueRoundTrip

/-!
# Runs of scheduled transactions

Entries come in any order, are grouped by their heights, and are then taken out of the schedule
height by height. Handed over one after the other, they are the entries for the heights that the run
has got to, sorted by height in a stable way.

A run only ever looks at the schedule for its current height, and does not come back to it, so that
taking out what has been looked at changes nothing. What each block gets is therefore what was
scheduled for its height in the first place.

## Key results

- `loadSchedule_of_decode`: the schedule of a file
- `Schedule.exists_addAll_error_iff`, `Schedule.transactionsAt_addAll`: how entries are scheduled
- `drainFrom_eq`: a run that uses its schedule up, and what it hands over
- `flatMap_heightsFrom`: entries taken from height to height are sorted
- `scheduled_run_once`: all of it
-/

namespace ChainEconomy

/-- The session once the file at a path, if this is what it asks for first, has turned out to hold a
text. -/
def Session.answered {α : Type} (path text : String) : Session α → Session α
  | .fileText asked resume => if asked = path then resume (.ok text) else .fileText asked resume
  | s => s

namespace Chain

/-! ## Files of entries -/

namespace Entry

/-- An entry as an object. -/
def toJson (e : Entry) : Json :=
  .object [("height", .natural e.height.toNat), ("tx", e.tx.toJson)]

/-- An entry is one level deeper than its transaction. -/
theorem isPlain_toJson (room : Nat) (e : Entry) : Json.isPlain (room + 8) e.toJson = true := by
  simp [toJson, Json.isPlain, Json.fieldsPlain, Json.isPlain_natural,
    Transaction.isPlain_toJson room]

/-- An entry is read as the entry. -/
theorem ofJson_toJson (e : Entry) : ofJson e.toJson = .ok e := by
  have hfields : e.toJson = .object [("height", .natural e.height.toNat), ("tx", e.tx.toJson)] :=
    rfl
  rw [ofJson, hfields, Json.record,
    Json.Record.required_eq_ok 0 rfl (Json.toUInt64_natural e.height),
    Json.Record.required_eq_ok 1 rfl e.tx.ofJson_toJson]
  rfl

/-- Every list of entries can be put into a file. -/
theorem decodeText_ofList (entries : List Entry) :
    Json.decodeText (Json.toList ofJson) (Json.ofList toJson entries).render = .ok entries := by
  have hplain : Json.isPlain Json.maxDepth (Json.ofList toJson entries) = true :=
    Json.isPlain_ofList (isPlain_toJson _) entries
  rw [Json.decodeText_render _ hplain, Json.toList_ofList ofJson_toJson]

end Entry

/-- Once entries have been read from a file, nothing fails but what fails for these entries. -/
theorem loadSchedule_of_decode {entries : List Entry} {text : String}
    (h : Json.decodeText (Json.toList Entry.ofJson) text = .ok entries) (path : String) :
    (Cli.loadSchedule (some path)).run.answered path text =
      .finish ((Schedule.ofEntries entries).mapError fun e => .ofCauses [e.message]) := by
  -- The session asks for the file at once, and ends as soon as it has it.
  have hasks : ∃ resume, (Cli.loadSchedule (some path)).run = .fileText path resume ∧
      resume (.ok text) =
        .finish ((Schedule.ofEntries entries).mapError fun e => .ofCauses [e.message]) := by
    refine ⟨_, rfl, ?_⟩
    simp only [Session.andThen, ExceptT.bindCont, Task.ofExcept, ExceptT.mk, Except.mapError, h]
  obtain ⟨resume, hfile, hresume⟩ := hasks
  rw [hfile, Session.answered, if_pos rfl, hresume]

/-! ## Schedules -/

namespace Schedule

/-- An entry goes behind what has been scheduled for its height. -/
theorem transactionsAt_add (s : Schedule) (e : Entry) (height : UInt64) :
    transactionsAt (add s e) height =
      transactionsAt s height ++ if e.height = height then [e.tx] else [] := by
  unfold add transactionsAt
  rw [OrderedMap.find?_insert]
  by_cases h : height = e.height
  · rw [if_pos h, if_pos h.symm, h, Option.getD_some]
  · rw [if_neg h, if_neg (Ne.symm h), List.append_nil]

/-- There is no schedule exactly if some entry has no block to go to. -/
theorem exists_addAll_error_iff {s : Schedule} {entries : List Entry} :
    (∃ e, addAll s entries = .error e) ↔ ∃ e ∈ entries, e.height = 0 := by
  -- By induction on the entries: the first one without a block ends the loop.
  induction entries generalizing s with
  | nil => simp [addAll]
  | cons e rest ih =>
    rw [addAll]
    split
    · next hzero => exact iff_of_true ⟨_, rfl⟩ ⟨e, List.mem_cons_self, hzero⟩
    · next hpos =>
      rw [ih]
      simp only [List.exists_mem_cons_iff, hpos, false_or]

/-- The entries of a height stand behind what has been scheduled for it before. -/
theorem transactionsAt_addAll {s s' : Schedule} {entries : List Entry}
    (h : addAll s entries = .ok s') (height : UInt64) :
    transactionsAt s' height =
      transactionsAt s height ++ (entries.filter (·.height = height)).map Entry.tx := by
  -- By induction on the entries.
  induction entries generalizing s with
  | nil =>
    cases h
    exact (List.append_nil _).symm
  | cons e rest ih =>
    rw [addAll] at h
    split at h
    · cases h
    · rw [ih h, transactionsAt_add, List.append_assoc, List.filter_cons]
      by_cases heq : e.height = height <;> simp [heq]

/-- A schedule has the entries of each height, in their order. -/
theorem transactionsAt_ofEntries {s : Schedule} {entries : List Entry}
    (h : ofEntries entries = .ok s) (height : UInt64) :
    transactionsAt s height = (entries.filter (·.height = height)).map Entry.tx :=
  transactionsAt_addAll h height

/-- What has been taken out for one height is still there for the others. -/
theorem transactionsAt_erase (s : Schedule) (used height : UInt64) :
    transactionsAt (s.erase used) height =
      if height = used then [] else transactionsAt s height := by
  unfold transactionsAt
  rw [OrderedMap.find?_erase]
  split <;> rfl

end Schedule

/-! ## Runs that use their schedule up -/

/-- The transactions that were handed to the block of a height. -/
structure Handover where
  height : UInt64
  txs : List Transaction

/-- What was handed over, as entries of the height. -/
def Handover.entries (h : Handover) : List Entry := h.txs.map fun tx => ⟨h.height, tx⟩

/-- A run, and what it handed to its blocks. -/
structure Drained where
  run : Run
  handovers : List Handover

/-- Processes blocks, the first of which has the given height. The transactions of each block are
taken out of the schedule and noted as they are handed over. -/
def drainFrom (genesis : BlockTime) (intervalMs : UInt64) (height : UInt64) :
    Nat → Schedule → Chain → Drained
  | 0, _, c => ⟨⟨[], none, c⟩, []⟩
  | blocks + 1, s, c =>
    let time := blockTime genesis height intervalMs
    let txs := Schedule.transactionsAt s height
    let rest : Schedule := s.erase height
    match (processBlock height time txs).run c with
    | (.error fault, c) => ⟨⟨[], some (height, fault), c⟩, [⟨height, txs⟩]⟩
    | (.ok outcome, c) =>
      let d := drainFrom genesis intervalMs (height + 1) blocks rest c
      ⟨{ d.run with outcomes := outcome :: d.run.outcomes }, ⟨height, txs⟩ :: d.handovers⟩

/-- Processes a number of blocks, from height one on, and uses the schedule up. -/
def drain (genesis : BlockTime) (intervalMs : UInt64) (schedule : Schedule) (blocks : UInt64)
    (c : Chain) : Drained := drainFrom genesis intervalMs 1 blocks.toNat schedule c

/-- The heights of a number of blocks. -/
def heightsFrom (first blocks : Nat) : List UInt64 := (List.range' first blocks).map UInt64.ofNat

/-- The first of the heights is the one to start from. -/
theorem heightsFrom_succ (first blocks : Nat) :
    heightsFrom first (blocks + 1) = UInt64.ofNat first :: heightsFrom (first + 1) blocks := rfl

/-- The heights of the blocks are the words from the first to the last one. -/
theorem mem_heightsFrom_iff {first blocks : Nat} (hword : first + blocks ≤ 2 ^ 64)
    {height : UInt64} :
    height ∈ heightsFrom first blocks ↔
      first ≤ height.toNat ∧ height.toNat < first + blocks := by
  unfold heightsFrom
  rw [List.mem_map]
  constructor
  · rintro ⟨n, hn, rfl⟩
    obtain ⟨hfirst, hlast⟩ := List.mem_range'_1.1 hn
    rw [UInt64.toNat_ofNat_of_lt' (show n < 2 ^ 64 by omega)]
    exact ⟨hfirst, hlast⟩
  · intro h
    exact ⟨height.toNat, List.mem_range'_1.2 h, UInt64.ofNat_toNat⟩

/-- The heights of the blocks ascend, as long as they are words. -/
theorem heightsFrom_ascending {first blocks : Nat} (hword : first + blocks ≤ 2 ^ 64) :
    (heightsFrom first blocks).Pairwise (· < ·) := by
  refine List.pairwise_map.2 ((List.pairwise_lt_range' 1).imp_of_mem fun {m n} hm hn hlt => ?_)
  have hmlast := (List.mem_range'_1.1 hm).2
  have hnlast := (List.mem_range'_1.1 hn).2
  rw [UInt64.lt_iff_toNat_lt, UInt64.toNat_ofNat_of_lt' (show m < 2 ^ 64 by omega),
    UInt64.toNat_ofNat_of_lt' (show n < 2 ^ 64 by omega)]
  exact hlt

/-- What is taken out for the first height is not missed at the later ones. -/
theorem transactionsAt_erase_first {first blocks : Nat} (hword : first + (blocks + 1) ≤ 2 ^ 64)
    (s : Schedule) {height : UInt64} (hheight : height ∈ heightsFrom (first + 1) blocks) :
    Schedule.transactionsAt (s.erase (UInt64.ofNat first)) height =
      Schedule.transactionsAt s height := by
  have hafter := ((mem_heightsFrom_iff (by omega)).1 hheight).1
  have hne : height ≠ UInt64.ofNat first := by
    rintro rfl
    rw [UInt64.toNat_ofNat_of_lt' (show first < 2 ^ 64 by omega)] at hafter
    omega
  rw [Schedule.transactionsAt_erase, if_neg hne]

/-- A schedule that is used up serves the blocks to come like one that is left alone, so that the
run is the same. Without a fault, every block gets what is scheduled for it. -/
theorem drainFrom_eq (genesis : BlockTime) (intervalMs : UInt64) {schedule s : Schedule}
    {first blocks : Nat} (hword : first + blocks ≤ 2 ^ 64)
    (hs : ∀ height ∈ heightsFrom first blocks,
      Schedule.transactionsAt s height = Schedule.transactionsAt schedule height) (c : Chain) :
    let d := drainFrom genesis intervalMs (UInt64.ofNat first) blocks s c
    let r := runFrom genesis intervalMs schedule (UInt64.ofNat first) blocks c
    d.run = r ∧ (r.fault = none → d.handovers =
      (heightsFrom first blocks).map fun height =>
        ⟨height, Schedule.transactionsAt schedule height⟩) := by
  -- By induction on the number of blocks, for any first height and any schedule that serves them.
  induction blocks generalizing first s c with
  | zero => exact ⟨rfl, fun _ => rfl⟩
  | succ blocks ih =>
    have hnext : UInt64.ofNat first + 1 = UInt64.ofNat (first + 1) :=
      (UInt64.ofNat_add first 1).symm
    obtain ⟨hfirst, hlater⟩ := List.forall_mem_cons.1 hs
    have hrest : ∀ height ∈ heightsFrom (first + 1) blocks,
        Schedule.transactionsAt (s.erase (UInt64.ofNat first)) height =
          Schedule.transactionsAt schedule height := fun height hheight =>
      (transactionsAt_erase_first hword s hheight).trans (hlater height hheight)
    intro d r
    dsimp only [d, r]
    rw [drainFrom, runFrom, hfirst, hnext]
    dsimp only
    -- Both runs process the same block, and go on, or end, in the same way.
    cases (processBlock (UInt64.ofNat first) (blockTime genesis (UInt64.ofNat first) intervalMs)
        (Schedule.transactionsAt schedule (UInt64.ofNat first))).run c with
    | mk result next =>
      cases result with
      | error fault => exact ⟨rfl, nofun⟩
      | ok o =>
        have hnextWord : first + 1 + blocks ≤ 2 ^ 64 := by omega
        obtain ⟨hrun, hhandovers⟩ := ih hnextWord hrest next
        dsimp only
        refine ⟨by rw [hrun], fun hfault => ?_⟩
        rw [hhandovers hfault, heightsFrom_succ, List.map_cons]

/-- A whole run may use its schedule up. -/
theorem drain_eq (genesis : BlockTime) (intervalMs : UInt64) (schedule : Schedule)
    (blocks : UInt64) (c : Chain) :
    let d := drain genesis intervalMs schedule blocks c
    d.run = run genesis intervalMs schedule blocks c ∧ (d.run.fault = none → d.handovers =
      (heightsFrom 1 blocks.toNat).map fun height =>
        ⟨height, Schedule.transactionsAt schedule height⟩) := by
  have hword : 1 + blocks.toNat ≤ 2 ^ 64 := Nat.add_comm _ 1 ▸ blocks.toNat_lt
  obtain ⟨hrun, hhandovers⟩ := drainFrom_eq genesis intervalMs hword (fun _ _ => rfl) c
  exact ⟨hrun, fun hfault => hhandovers (hrun ▸ hfault)⟩

/-- What is handed over at some heights is what the entries have for these heights. -/
theorem flatMap_handovers {schedule : Schedule} {entries : List Entry}
    (h : Schedule.ofEntries entries = .ok schedule) (heights : List UInt64) :
    (heights.map fun height =>
        (⟨height, Schedule.transactionsAt schedule height⟩ : Handover)).flatMap Handover.entries =
      heights.flatMap fun height => entries.filter (·.height = height) := by
  rw [List.flatMap_map]
  refine List.flatMap_congr fun height _ => ?_
  rw [Handover.entries, Schedule.transactionsAt_ofEntries h, List.map_map]
  -- The height of an entry that has been found is the one looked for.
  have hentry : ∀ e ∈ entries.filter (·.height = height),
      ((fun tx => (⟨height, tx⟩ : Entry)) ∘ Entry.tx) e = id e := by
    intro e he
    rw [← of_decide_eq_true (List.mem_filter.1 he).2]
    rfl
  rw [List.map_congr_left hentry, List.map_id]

/-- Taken from height to height up to the last block, the entries are those up to its height, and
sorted. -/
theorem flatMap_heightsFrom {entries : List Entry} (hheights : ∀ e ∈ entries, e.height ≠ 0)
    (blocks : UInt64) :
    ((heightsFrom 1 blocks.toNat).flatMap fun height => entries.filter (·.height = height)) =
      (entries.filter (·.height ≤ blocks)).mergeSort (·.height ≤ ·.height) := by
  have hword : 1 + blocks.toNat ≤ 2 ^ 64 := Nat.add_comm _ 1 ▸ blocks.toNat_lt
  have hmem : ∀ {height : UInt64}, height ∈ heightsFrom 1 blocks.toNat ↔
      height ≠ 0 ∧ height ≤ blocks := by
    intro height
    rw [mem_heightsFrom_iff hword, UInt64.le_iff_toNat_le, ne_eq, ← UInt64.toNat_inj]
    show _ ↔ ¬ height.toNat = 0 ∧ _
    omega
  -- Going from height to height is sorting, since the heights ascend and all entries have one of
  -- them.
  rw [← flatMap_filter_eq_mergeSort (heightsFrom_ascending hword) fun e he => hmem.2
    ⟨hheights e (List.mem_filter.1 he).1, of_decide_eq_true (List.mem_filter.1 he).2⟩]
  refine List.flatMap_congr fun height hheight => ?_
  rw [List.filter_filter]
  refine List.filter_congr fun e _ => ?_
  -- An entry of this height is within the bound because the height is.
  by_cases heq : e.height = height
  · simp [heq, (hmem.1 hheight).2]
  · simp [heq]

/-- Every list of entries can be put into a file, and the schedule of a file is that of its entries;
there is none exactly if some entry has the height zero. It makes no difference to a run that it
takes the transactions of each block out of the schedule. If no fault ends it, the blocks have the
heights from one to their number, and what they have been handed, one block after the other, are the
entries up to the last height, sorted by height in a stable way. -/
theorem scheduled_run_once (entries : List Entry) :
    (∃ text, Json.decodeText (Json.toList Entry.ofJson) text = .ok entries) ∧
      (∀ path text, Json.decodeText (Json.toList Entry.ofJson) text = .ok entries →
        (Cli.loadSchedule (some path)).run.answered path text =
          .finish ((Schedule.ofEntries entries).mapError fun e => .ofCauses [e.message])) ∧
      ((∃ e, Schedule.ofEntries entries = .error e) ↔ ∃ e ∈ entries, e.height = 0) ∧
      ∀ schedule, Schedule.ofEntries entries = .ok schedule →
        ∀ (genesis : BlockTime) (intervalMs blocks : UInt64) (c : Chain),
          let d := drain genesis intervalMs schedule blocks c
          d.run = run genesis intervalMs schedule blocks c ∧
            (d.run.fault = none →
              d.handovers.map Handover.height = heightsFrom 1 blocks.toNat ∧
                d.handovers.flatMap Handover.entries =
                  (entries.filter (·.height ≤ blocks)).mergeSort (·.height ≤ ·.height)) := by
  refine ⟨⟨_, Entry.decodeText_ofList entries⟩, fun path text h => loadSchedule_of_decode h path,
    Schedule.exists_addAll_error_iff, fun schedule h genesis intervalMs blocks c => ?_⟩
  obtain ⟨hrun, hhandovers⟩ := drain_eq genesis intervalMs schedule blocks c
  -- There is a schedule, so that no entry has the height zero.
  have hheights : ∀ e ∈ entries, e.height ≠ 0 := by
    intro e he hzero
    obtain ⟨error, herror⟩ := Schedule.exists_addAll_error_iff.2 ⟨e, he, hzero⟩
    cases h.symm.trans herror
  refine ⟨hrun, fun hfault => ?_⟩
  rw [hhandovers hfault, flatMap_handovers h, flatMap_heightsFrom hheights, List.map_map]
  exact ⟨List.map_id _, rfl⟩

/-- Payments for three heights, one of which no block gets to. -/
def Sample.entries : List Entry :=
  [⟨2, payment 100⟩, ⟨5, payment 1⟩, ⟨1, payment 200⟩, ⟨2, payment 50⟩]

/-- The schedule of the payments. -/
def Sample.timetable : Schedule :=
  ⟨[(1, [payment 200]), (2, [payment 100, payment 50]), (5, [payment 1])], by decide⟩

/-- The payments of the second block keep their order, and the one for the fifth is left. -/
theorem scheduled_run_once_sample :
    (Cli.loadSchedule (some "txs.json")).run.answered "txs.json"
        (Json.ofList Entry.toJson Sample.entries).render = .finish (.ok Sample.timetable) ∧
      let d := drain Sample.genesis.time 1000 Sample.timetable 3 Sample.chain
      d.run.fault = none ∧ d.handovers.flatMap Handover.entries =
        [⟨1, Sample.payment 200⟩, ⟨2, Sample.payment 100⟩, ⟨2, Sample.payment 50⟩] := by
  have hschedule : Schedule.ofEntries Sample.entries = .ok Sample.timetable := by rfl
  have hfault : (drain Sample.genesis.time 1000 Sample.timetable 3 Sample.chain).run.fault =
      none := by decide +kernel
  obtain ⟨-, hload, -, hruns⟩ := scheduled_run_once Sample.entries
  obtain ⟨-, hdone⟩ := hruns Sample.timetable hschedule Sample.genesis.time 1000 3 Sample.chain
  obtain ⟨-, hsorted⟩ := hdone hfault
  refine ⟨?_, hfault, ?_⟩
  · rw [hload "txs.json" _ (Entry.decodeText_ofList _), hschedule]
    rfl
  · rw [hsorted, ← flatMap_heightsFrom (by decide)]
    rfl

end Chain

end ChainEconomy
