import ChatRelay.Proofs.Timer.Handles
import ChatRelay.Proofs.Users.Places

/-!
# What a dedup id has of a queue

A queue numbers the firings of all ids together, and their locks. `Queue.part` is the queue as it
looks to those of one id: there are only their own firings, numbered among themselves, and the lock
in the table bears the same number whatever its own is. Events of other ids leave the part as it is,
and an event of the id makes of the part what it would make of it if there were no others.
-/

namespace ChatRelay.Timer

/-- Other numbers stand for locks, and it is left open which firing a retry is. -/
def Phase.coded (code : Nat → Nat) : Phase → Phase
  | .waiting lock => .waiting (code lock)
  | .running lock => .running (code lock)
  | .ended lock o => .ended (code lock) o
  | .unlocked lock o => .unlocked (code lock) o
  | .tidied lock o => .tidied (code lock) o
  | .over (.ran o retry) => .over (.ran o (retry.map fun _ => 0))
  | p => p

section
variable {code code' : Nat → Nat} {p : Phase}

@[simp] theorem Phase.handle?_coded : (p.coded code).handle? = p.handle?.map code := by
  unfold coded
  split <;> try rfl
  cases p <;> simp_all [handle?]

theorem Phase.lock?_coded : (p.coded code).lock? = p.lock?.map code := by
  unfold coded
  split <;> try rfl
  cases p <;> simp_all [lock?]

@[simp] theorem Phase.coded_eq_sleeping : p.coded code = .sleeping ↔ p = .sleeping := by
  unfold coded
  split <;> simp

@[simp] theorem Phase.coded_eq_awake : p.coded code = .awake ↔ p = .awake := by
  unfold coded
  split <;> simp

@[simp] theorem Phase.coded_eq_claimed : p.coded code = .claimed ↔ p = .claimed := by
  unfold coded
  split <;> simp

theorem Phase.coded_coded : (p.coded code).coded code' = p.coded (code' ∘ code) := by
  cases p with
  | «over» ending =>
    cases ending with
    | ran o retry => cases retry <;> rfl
    | _ => rfl
  | _ => rfl

theorem Phase.coded_congr (h : ∀ lock, p.handle? = some lock → code lock = code' lock) :
    p.coded code = p.coded code' := by
  cases p with
  | «over» ending => cases ending <;> rfl
  | _ => simp_all [coded, handle?]

end

namespace Queue

def isOf (id : String) (f : Firing) : Bool := f.task.dedupId = id

def place (q : Queue) (id : String) (g : Nat) : Nat := Places.rank (isOf id) q.firings g

/-- What stands for a lock: whether it is the one that the table has for the id. -/
def lockCode (q : Queue) (id : String) (lock : Nat) : Nat :=
  if Table.get? q.locks id = some lock then 1 else 0

/-- A firing as it is seen, whichever schedule it goes back to. -/
def seat (code : Nat → Nat) (f : Firing) : Firing :=
  { f with origin := 0, phase := f.phase.coded code }

def part (q : Queue) (id : String) : Queue :=
  { q with
    firings := Places.share (isOf id) (seat (q.lockCode id)) q.firings
    timers := (Table.get? q.timers id).toList.map fun g => (id, q.place id g)
    locks := (Table.get? q.locks id).toList.map fun _ => (id, 1)
    nextLock := 2 }

variable {q q' : Queue} {id : String} {g : Nat} {f : Firing}

@[simp] theorem policy_part : (q.part id).policy = q.policy := rfl
@[simp] theorem handlers_part : (q.part id).handlers = q.handlers := rfl
@[simp] theorem closed_part : (q.part id).closed = q.closed := rfl
@[simp] theorem now_part : (q.part id).now = q.now := rfl

theorem isOf_iff : isOf id f ↔ f.task.dedupId = id := decide_eq_true_iff

theorem seat_seat (code code' : Nat → Nat) (f : Firing) :
    seat code' (seat code f) = seat (code' ∘ code) f := by
  simp only [seat, Phase.coded_coded]

/-! ## What can be told from the part -/

theorem firing?_part (hf : q.firing? g = some f) (hid : f.task.dedupId = id) :
    (q.part id).firing? (q.place id g) = some (seat (q.lockCode id) f) :=
  Places.getElem?_share hf (isOf_iff.mpr hid)

theorem get?_timers_part :
    Table.get? (q.part id).timers id = (Table.get? q.timers id).map (q.place id) := by
  unfold part
  cases Table.get? q.timers id <;> simp [Table.get?_cons]

theorem get?_locks_part :
    Table.get? (q.part id).locks id = (Table.get? q.locks id).map fun _ => 1 := by
  unfold part
  cases Table.get? q.locks id <;> simp [Table.get?_cons]

@[simp] theorem isPending_part : (q.part id).isPending id = q.isPending id := by
  rw [isPending, Table.has, get?_timers_part, Option.isSome_map]
  rfl

theorem remove_timers_part : Table.remove (q.part id).timers id = [] := by
  unfold part
  cases Table.get? q.timers id <;> simp [Table.remove]

theorem lockCode_of_get? {lock : Nat} (h : Table.get? q.locks id = some lock) :
    q.lockCode id lock = 1 := if_pos h

theorem lockCode_eq_one {lock : Nat} :
    q.lockCode id lock = 1 ↔ Table.get? q.locks id = some lock := by
  unfold lockCode
  split <;> simp_all

theorem lockCode_le_one (q : Queue) (id : String) (lock : Nat) : q.lockCode id lock ≤ 1 := by
  unfold lockCode
  split <;> simp

theorem lockCode_part : (q.part id).lockCode id ∘ q.lockCode id = q.lockCode id := by
  funext lock
  rw [Function.comp_apply, lockCode, get?_locks_part]
  unfold lockCode
  cases Table.get? q.locks id with
  | none => simp
  | some own => by_cases h : own = lock <;> simp [h]

theorem place_le (q : Queue) (id : String) (g : Nat) : q.place id g ≤ (q.part id).firings.length :=
  Places.rank_le ..

theorem place_place (g : Nat) : (q.part id).place id (q.place id g) = q.place id g :=
  Places.rank_share (fun _ _ hf => hf) (place_le q id g)

/-- A part of a queue is all that the id has of the part. -/
theorem part_part : (q.part id).part id = q.part id := by
  have hfirings : Places.share (isOf id) (seat ((q.part id).lockCode id)) (q.part id).firings =
      (q.part id).firings := by
    have hseats : seat ((q.part id).lockCode id) ∘ seat (q.lockCode id) = seat (q.lockCode id) := by
      funext f
      rw [Function.comp_apply, seat_seat, lockCode_part]
    have hshare : Places.share (isOf id) (seat ((q.part id).lockCode id))
        (Places.share (isOf id) (seat (q.lockCode id)) q.firings) =
          Places.share (isOf id) (seat ((q.part id).lockCode id) ∘ seat (q.lockCode id))
            q.firings := Places.share_share fun _ _ hf => hf
    rw [hseats] at hshare
    exact hshare
  have htimers : ((Table.get? (q.part id).timers id).toList.map
      fun g => (id, (q.part id).place id g)) = (q.part id).timers := by
    rw [get?_timers_part]
    cases h : Table.get? q.timers id with
    | none => simp [part, h]
    | some g => rw [Option.map_some, Option.toList_some, List.map_singleton, place_place,
        part, h]; rfl
  have hlocks : ((Table.get? (q.part id).locks id).toList.map fun _ => (id, 1)) =
      (q.part id).locks := by
    rw [get?_locks_part]
    cases h : Table.get? q.locks id <;> simp [part, h]
  change ({ q.part id with
    firings := Places.share (isOf id) (seat ((q.part id).lockCode id)) (q.part id).firings
    timers := (Table.get? (q.part id).timers id).toList.map fun g => (id, (q.part id).place id g)
    locks := (Table.get? (q.part id).locks id).toList.map fun _ => (id, 1) } : Queue) = _
  rw [hfirings, htimers, hlocks]

/-- The pending timer of an id is that of one of its firings. -/
def Owned (q : Queue) (id : String) : Prop :=
  ∀ g, Table.get? q.timers id = some g → ∃ f, q.firing? g = some f ∧ f.task.dedupId = id

theorem Sound.owned (h : q.Sound) (id : String) : q.Owned id := by
  intro g hg
  obtain ⟨f, hf, hid, -⟩ := h.pending hg
  exact ⟨f, hf, hid⟩

theorem Owned.setPhase (h : q.Owned id) (g : Nat) (p : Phase) : (q.setPhase g p).Owned id := by
  intro k hk
  obtain ⟨f, hf, hid⟩ := h k hk
  rw [firing?_setPhase, hf]
  split
  · exact ⟨_, rfl, hid⟩
  · exact ⟨f, rfl, hid⟩

theorem Owned.part (h : q.Owned id) : (q.part id).Owned id := by
  intro k hk
  rw [get?_timers_part] at hk
  obtain ⟨g, hg, rfl⟩ := Option.map_eq_some_iff.mp hk
  obtain ⟨f, hf, hid⟩ := h g hg
  exact ⟨_, firing?_part hf hid, hid⟩

theorem part_of_eq (h : q'.part id = q) : q'.part id = q.part id := by rw [← h, part_part]

/-! ## Changes of one's own -/

theorem place_setPhase (hf : q.firing? g = some f) (p : Phase) :
    (q.setPhase g p).place id = q.place id := funext fun k => Places.rank_modify hf rfl k

theorem part_setPhase (hf : q.firing? g = some f) (hid : f.task.dedupId = id) (p : Phase) :
    (q.setPhase g p).part id =
      (q.part id).setPhase (q.place id g) (p.coded (q.lockCode id)) := by
  have hfirings : ((q.setPhase g p).part id).firings =
      ((q.part id).setPhase (q.place id g) (p.coded (q.lockCode id))).firings :=
    Places.share_modify hf (isOf_iff.mpr hid) (isOf_iff.mpr hid) rfl
  change ({ q.part id with
    firings := ((q.setPhase g p).part id).firings
    timers := (Table.get? q.timers id).toList.map
      fun k => (id, (q.setPhase g p).place id k) } : Queue) = _
  rw [hfirings, place_setPhase hf]
  rfl

theorem isOf_callOff (f : Firing) : isOf id (callOff f) = isOf id f := by
  simp only [isOf, callOff_task]

theorem seat_callOff (code : Nat → Nat) (f : Firing) :
    seat code (callOff f) = callOff (seat code f) := by
  unfold callOff
  cases hp : f.phase with
  | «over» ending => cases ending <;> simp [seat, hp, Phase.coded]
  | _ => simp [seat, hp, Phase.coded]

theorem part_displace (ho : q.Owned id) :
    (q.displace id).part id = (q.part id).displace id := by
  unfold displace
  rw [get?_timers_part]
  cases hg : Table.get? q.timers id with
  | none => rfl
  | some g =>
    obtain ⟨f, hf, hid⟩ := ho g hg
    have hof : isOf id f := isOf_iff.mpr hid
    have hfirings : Places.share (isOf id) (seat (q.lockCode id)) (q.firings.modify g callOff) =
        (q.part id).firings.modify (q.place id g) callOff :=
      Places.share_modify hf hof ((isOf_callOff f).trans hof) (seat_callOff ..)
    have hplace : ∀ k, Places.rank (isOf id) (q.firings.modify g callOff) k = q.place id k :=
      fun k => Places.rank_modify hf (isOf_callOff f) k
    dsimp only [Option.map_some]
    change ({ q.part id with
      firings := Places.share (isOf id) (seat (q.lockCode id)) (q.firings.modify g callOff)
      timers := (Table.get? q.timers id).toList.map
        fun k => (id, Places.rank (isOf id) (q.firings.modify g callOff) k) } : Queue) = _
    rw [hfirings, funext hplace]
    rfl

theorem part_arm {task : Task} (htask : task.dedupId = id) (ho : q.Owned id)
    (delayMillis attempt : Nat) (origin : Option Nat) :
    (q.arm task delayMillis attempt origin).part id =
      (q.part id).arm task delayMillis attempt (some 0) := by
  subst htask
  have hdisplace := part_displace ho
  generalize hd : q.displace task.dedupId = d at hdisplace
  have hlen : d.firings.length = q.firings.length := hd ▸ length_displace ..
  have hplace : Places.rank (isOf task.dedupId) (q.arm task delayMillis attempt origin).firings
      q.firings.length = (q.part task.dedupId).firings.length := by
    rw [arm, ← hlen, hd]
    refine (Places.rank_length _ (seat (d.lockCode task.dedupId)) ..).trans ?_
    change (d.part task.dedupId).firings.length = _
    rw [hdisplace, length_displace]
  have hfirings : Places.share (isOf task.dedupId) (seat (d.lockCode task.dedupId))
      (q.arm task delayMillis attempt origin).firings = (d.part task.dedupId).firings ++
        [{ task, attempt, origin := 0, due := d.now + delayMillis }] := by
    rw [arm, hd]
    exact Places.share_concat (isOf_iff.mpr rfl)
  have htimers : Table.put ((q.part task.dedupId).displace task.dedupId).timers task.dedupId
      (q.part task.dedupId).firings.length =
        [(task.dedupId, (q.part task.dedupId).firings.length)] := by
    rw [timers_displace, Table.put, remove_timers_part, List.nil_append]
  change _ = ({ (q.part task.dedupId).displace task.dedupId with
    firings := ((q.part task.dedupId).displace task.dedupId).firings ++
      [{ task, attempt, origin := 0
         due := ((q.part task.dedupId).displace task.dedupId).now + delayMillis }]
    timers := Table.put ((q.part task.dedupId).displace task.dedupId).timers task.dedupId
      (q.part task.dedupId).firings.length } : Queue)
  rw [htimers, ← hdisplace]
  change _ = ({ d.part task.dedupId with
    firings := (d.part task.dedupId).firings ++
      [{ task, attempt, origin := 0, due := d.now + delayMillis }]
    timers := [(task.dedupId, (q.part task.dedupId).firings.length)] } : Queue)
  rw [← hfirings, ← hplace, part, get?_timers_arm, if_pos rfl, arm, hd]
  rfl

/-- The timer is claimed. -/
theorem part_removeTimer : part { q with timers := Table.remove q.timers id } id =
    { q.part id with timers := Table.remove (q.part id).timers id } := by
  rw [remove_timers_part]
  change ({ q.part id with
    timers := (Table.get? (Table.remove q.timers id) id).toList.map fun g => (id, q.place id g) } :
      Queue) = _
  rw [Table.get?_remove, if_pos rfl]
  rfl

/-- A lock is made of which nobody has a handle. -/
theorem part_putLock (hn : Table.get? q.locks id = none) {lock : Nat}
    (hfresh : ∀ {g f}, q.firing? g = some f → f.task.dedupId = id →
      f.phase.handle? ≠ some lock) (next : Nat) :
    part { q with locks := Table.put q.locks id lock, nextLock := next } id =
      { q.part id with locks := [(id, 1)] } := by
  have hfirings : Places.share (isOf id)
      (seat (lockCode { q with locks := Table.put q.locks id lock, nextLock := next } id))
      q.firings = (q.part id).firings := by
    refine Places.share_congr fun f hmem hof => ?_
    have hphase : f.phase.coded
        (lockCode { q with locks := Table.put q.locks id lock, nextLock := next } id) =
          f.phase.coded (q.lockCode id) := by
      refine Phase.coded_congr fun own hown => ?_
      obtain ⟨g, hg⟩ := List.mem_iff_getElem?.mp hmem
      have hne : lock ≠ own := fun h => hfresh hg (isOf_iff.mp hof) (h ▸ hown)
      simp [lockCode, Table.get?_put, hn, hne]
    simp only [seat, hphase]
  change ({ q.part id with
    firings := Places.share (isOf id)
      (seat (lockCode { q with locks := Table.put q.locks id lock, nextLock := next } id)) q.firings
    locks := (Table.get? (Table.put q.locks id lock) id).toList.map fun _ => (id, 1) } :
      Queue) = _
  rw [hfirings, Table.get?_put, if_pos rfl]
  rfl

theorem part_newLock (hf : q.firing? g = some f) (hid : f.task.dedupId = id)
    (hn : Table.get? q.locks id = none) {lock : Nat}
    (hfresh : ∀ {g f}, q.firing? g = some f → f.task.dedupId = id →
      f.phase.handle? ≠ some lock) (next : Nat) :
    part (setPhase { q with locks := Table.put q.locks id lock, nextLock := next } g
      (.waiting lock)) id =
        setPhase { q.part id with locks := [(id, 1)] } (q.place id g) (.waiting 1) := by
  have hf' : firing? { q with locks := Table.put q.locks id lock, nextLock := next } g =
      some f := hf
  have hcode :
      lockCode { q with locks := Table.put q.locks id lock, nextLock := next } id lock = 1 :=
    lockCode_of_get? ((Table.get?_put ..).trans (if_pos rfl))
  rw [part_setPhase hf' hid, part_putLock hn hfresh, Phase.coded, hcode]
  rfl

/-- The lock goes from the table, and no lock is that of the table any more. -/
theorem part_removeLock : part { q with locks := Table.remove q.locks id } id =
    part { q.part id with locks := Table.remove (q.part id).locks id } id := by
  have hcode : ∀ {r : Queue}, lockCode { r with locks := Table.remove r.locks id } id =
      fun _ => 0 := by
    intro r
    funext lock
    simp [lockCode, Table.get?_remove]
  have hseats : seat (fun _ => 0) ∘ seat (q.lockCode id) = seat (fun _ => 0) :=
    funext fun f => seat_seat ..
  have hfirings : Places.share (isOf id)
      (seat (lockCode { q.part id with locks := Table.remove (q.part id).locks id } id))
        (q.part id).firings =
      Places.share (isOf id) (seat (lockCode { q with locks := Table.remove q.locks id } id))
        q.firings := by
    have hshare : Places.share (isOf id) (seat fun _ => 0)
        (Places.share (isOf id) (seat (q.lockCode id)) q.firings) =
          Places.share (isOf id) (seat (fun _ => 0) ∘ seat (q.lockCode id)) q.firings :=
      Places.share_share fun _ _ hf => hf
    rw [hcode, hcode]
    exact hshare.trans (by rw [hseats])
  have htimers : ((q.part id).part id).timers = (q.part id).timers := congrArg _ part_part
  have hlocks : ∀ locks : Table String Nat,
      ((Table.get? (Table.remove locks id) id).toList.map fun _ => (id, 1)) = [] := by
    intro locks
    rw [Table.get?_remove, if_pos rfl]
    rfl
  change ({ q.part id with
    firings := Places.share (isOf id)
      (seat (lockCode { q with locks := Table.remove q.locks id } id)) q.firings
    locks := (Table.get? (Table.remove q.locks id) id).toList.map fun _ => (id, 1) } : Queue) =
    { q.part id with
      firings := Places.share (isOf id)
        (seat (lockCode { q.part id with locks := Table.remove (q.part id).locks id } id))
          (q.part id).firings
      timers := ((q.part id).part id).timers
      locks := (Table.get? (Table.remove (q.part id).locks id) id).toList.map fun _ => (id, 1) }
  rw [hfirings, htimers, hlocks, hlocks]

/-! ## What is asked of locks -/

/-- Those who are concerned with the lock of an id are of the id. -/
theorem countP_part (ha : q.Apart) {lock : Nat} (hl : Table.get? q.locks id = some lock)
    {look : Phase → Option Nat} (hcoded : ∀ {code p}, look (Phase.coded code p) = (look p).map code)
    (hhandle : ∀ {p lock}, look p = some lock → p.handle? = some lock) :
    (q.part id).firings.countP (fun f => look f.phase = some 1) =
      q.firings.countP fun f => look f.phase = some lock := by
  change List.countP _ ((q.firings.filter (isOf id)).map (seat (q.lockCode id))) = _
  rw [List.countP_map, List.countP_filter]
  refine List.countP_congr fun f hmem => ?_
  simp only [Function.comp_apply, seat, hcoded, Bool.and_eq_true, decide_eq_true_eq,
    Option.map_eq_some_iff, lockCode_eq_one, hl, Option.some.injEq]
  constructor
  · rintro ⟨⟨own, hown, rfl⟩, -⟩
    exact hown
  · intro hlook
    obtain ⟨g, hg⟩ := List.mem_iff_getElem?.mp hmem
    have hid : f.task.dedupId = id := ha.single (.inl ⟨g, f, hg, rfl, hhandle hlook⟩) (.inr hl)
    exact ⟨⟨lock, hlook, rfl⟩, isOf_iff.mpr hid⟩

theorem isLocked_part (ha : q.Apart) {lock : Nat} (hl : Table.get? q.locks id = some lock) :
    (q.part id).isLocked 1 = q.isLocked lock := by
  have hcount := countP_part ha hl Phase.lock?_coded
    fun h => Phase.handle?_of_engaged? (Phase.engaged?_of_lock? h)
  rw [Bool.eq_iff_iff, isLocked, isLocked, List.any_eq_true, List.any_eq_true,
    ← List.countP_pos_iff, ← List.countP_pos_iff, hcount]

theorem handles_part (ha : q.Apart) {lock : Nat} (hl : Table.get? q.locks id = some lock) :
    (q.part id).handles 1 = q.handles lock := by
  have hfirings := countP_part ha hl Phase.handle?_coded fun h => h
  have hpart : (q.part id).locks.countP (·.2 = 1) = 1 := by simp [part, hl]
  rw [handles, handles, hfirings, ha.countP_locks hl, hpart]

/-! ## Events of one's own -/

def Event.renamed (place : Nat → Nat) : Event → Event
  | .schedule task => .schedule task
  | .wait millis => .wait millis
  | .wake g => .wake (place g)
  | .claim g => .claim (place g)
  | .takeHandle g => .takeHandle (place g)
  | .acquire g => .acquire (place g)
  | .finish g o => .finish (place g) o
  | .unlock g => .unlock (place g)
  | .tidy g => .tidy (place g)
  | .dropHandle g => .dropHandle (place g)
  | .settle g jitter => .settle (place g) jitter
  | .shutdown => .shutdown

section
variable (hf : q.firing? g = some f) (hid : f.task.dedupId = id)
include hf hid

theorem part_wake : (q.wake g).part id = (q.part id).wake (q.place id g) := by
  simp only [wake, hf, firing?_part hf hid, seat, Phase.coded_eq_sleeping, now_part]
  split
  · exact part_setPhase hf hid _
  · rfl

theorem part_claim (hs : q.Sound) : (q.claim g).part id = (q.part id).claim (q.place id g) := by
  have hmine : Table.get? (q.part id).timers id = some (q.place id g) ↔
      Table.get? q.timers id = some g := by
    rw [get?_timers_part, Option.map_eq_some_iff]
    constructor
    · rintro ⟨k, hk, hplace⟩
      obtain ⟨fk, hfk, hkid, -⟩ := hs.pending hk
      rwa [← Places.rank_inj hfk hf (isOf_iff.mpr hkid) (isOf_iff.mpr hid) hplace]
    · intro hg
      exact ⟨g, hg, rfl⟩
  simp only [claim, hf, firing?_part hf hid, seat, Phase.coded_eq_awake, ne_eq, handlers_part,
    hid, hmine]
  split
  · rfl
  · split
    · exact part_setPhase hf hid _
    · have hf' : firing? { q with timers := Table.remove q.timers id } g = some f := hf
      split <;> exact (part_setPhase hf' hid _).trans (by rw [part_removeTimer]; rfl)

theorem part_takeHandle (ha : q.Apart) :
    (q.takeHandle g).part id = ((q.part id).takeHandle (q.place id g)).part id := by
  have hf' := firing?_part hf hid
  by_cases hp : f.phase = .claimed
  · have hp' : (seat (q.lockCode id) f).phase = .claimed := Phase.coded_eq_claimed.mpr hp
    have hid' : (seat (q.lockCode id) f).task.dedupId = id := hid
    cases hl : Table.get? q.locks id with
    | some lock =>
      have hl' : Table.get? (q.part id).locks id = some 1 := by rw [get?_locks_part, hl]; rfl
      simp only [takeHandle, hf, hf', hp, hp', hid, hid', hl, hl', ne_eq, not_true, if_false]
      refine part_of_eq ((part_setPhase hf hid _).trans ?_)
      rw [Phase.coded, lockCode_of_get? hl]
    | none =>
      have hl' : Table.get? (q.part id).locks id = none := by rw [get?_locks_part, hl]; rfl
      simp only [takeHandle, hf, hf', hp, hp', hid, hid', hl, hl', ne_eq, not_true, if_false]
      -- neither number is that of a lock of which somebody has a handle
      have hfresh : ∀ {g f}, q.firing? g = some f → f.task.dedupId = id →
          f.phase.handle? ≠ some q.nextLock := fun hg hgid hh =>
        Nat.lt_irrefl _ (ha.fresh (.inl ⟨_, _, hg, hgid, hh⟩))
      have hfresh' : ∀ {g f}, (q.part id).firing? g = some f → f.task.dedupId = id →
          f.phase.handle? ≠ some (q.part id).nextLock := by
        intro k fk hk _ hh
        obtain ⟨fs, -, rfl⟩ := List.mem_map.mp (List.mem_of_getElem? hk)
        rw [seat, Phase.handle?_coded] at hh
        obtain ⟨own, -, hcode⟩ := Option.map_eq_some_iff.mp hh
        have hle := hcode ▸ lockCode_le_one q id own
        exact absurd hle (show ¬ 2 ≤ 1 by decide)
      rw [part_newLock hf hid hl hfresh, part_newLock hf' hid' hl' hfresh', part_part, place_place]
  · have hp' : (seat (q.lockCode id) f).phase ≠ .claimed := fun h =>
      hp (Phase.coded_eq_claimed.mp h)
    simp only [takeHandle, hf, hf', ne_eq, hp, hp', not_false_iff, if_true]
    exact part_part.symm

theorem part_acquire (hs : q.Sound) (ha : q.Apart) :
    (q.acquire g).part id = (q.part id).acquire (q.place id g) := by
  simp only [acquire, phase?, hf, firing?_part hf hid, seat, Option.map_some]
  cases hp : f.phase with
  | «over» ending => cases ending <;> rfl
  | waiting lock =>
    have hl : Table.get? q.locks id = some lock := hid ▸ hs.engaged hf (by rw [hp]; rfl)
    simp only [Phase.coded, lockCode_of_get? hl, isLocked_part ha hl]
    split
    · rfl
    · refine (part_setPhase hf hid _).trans ?_
      rw [Phase.coded, lockCode_of_get? hl]
  | _ => rfl

theorem part_tidy (hs : q.Sound) (ha : q.Apart) :
    (q.tidy g).part id = ((q.part id).tidy (q.place id g)).part id := by
  have hf' := firing?_part hf hid
  cases hp : f.phase with
  | unlocked lock o =>
    have hl : Table.get? q.locks id = some lock := hid ▸ hs.engaged hf (by rw [hp]; rfl)
    have hl' : Table.get? (q.part id).locks id = some 1 := by rw [get?_locks_part, hl]; rfl
    have hp' : (seat (q.lockCode id) f).phase = .unlocked 1 o := by
      rw [seat, hp, Phase.coded, lockCode_of_get? hl]
    have hid' : (seat (q.lockCode id) f).task.dedupId = id := hid
    have hset : (q.setPhase g (.tidied lock o)).part id =
        (q.part id).setPhase (q.place id g) (.tidied 1 o) := by
      rw [part_setPhase hf hid, Phase.coded, lockCode_of_get? hl]
    have hhandles : ((q.part id).setPhase (q.place id g) (.tidied 1 o)).handles 1 =
        (q.setPhase g (.tidied lock o)).handles lock := by
      rw [← hset]
      exact handles_part (ha.tidied hf hp) hl
    simp only [tidy, hf, hf', hp, hp', hid, hid', locks_setPhase, hl, hl', hhandles, true_and]
    split
    · refine (part_removeLock (q := q.setPhase g (.tidied lock o))).trans ?_
      rw [hset]
      rfl
    · exact part_of_eq hset
  | «over» ending =>
    cases ending <;>
      simpa only [tidy, hf, hf', hp, seat, Phase.coded] using part_part.symm
  | _ => simpa only [tidy, hf, hf', hp, seat, Phase.coded] using part_part.symm

theorem part_finish (o : Except RelayError Unit) :
    (q.finish g o).part id = (q.part id).finish (q.place id g) o := by
  simp only [finish, phase?, hf, firing?_part hf hid, seat, Option.map_some]
  cases hp : f.phase with
  | «over» ending => cases ending <;> rfl
  | running lock => exact part_setPhase hf hid _
  | _ => rfl

theorem part_unlock : (q.unlock g).part id = (q.part id).unlock (q.place id g) := by
  simp only [unlock, phase?, hf, firing?_part hf hid, seat, Option.map_some]
  cases hp : f.phase with
  | «over» ending => cases ending <;> rfl
  | ended lock o => exact part_setPhase hf hid _
  | _ => rfl

theorem part_dropHandle : (q.dropHandle g).part id = (q.part id).dropHandle (q.place id g) := by
  simp only [dropHandle, phase?, hf, firing?_part hf hid, seat, Option.map_some]
  cases hp : f.phase with
  | «over» ending => cases ending <;> rfl
  | tidied lock o => exact part_setPhase hf hid _
  | _ => rfl

theorem part_settle (hs : q.Sound) (jitter : Rat) :
    (q.settle g jitter).part id = ((q.part id).settle (q.place id g) jitter).part id := by
  have hf' := firing?_part hf hid
  cases hp : f.phase with
  | settling o =>
    have hp' : (seat (q.lockCode id) f).phase = .settling o := by rw [seat, hp]; rfl
    have hid' : (seat (q.lockCode id) f).task.dedupId = id := hid
    have hwants : (q.part id).wantsRetry (seat (q.lockCode id) f) o = q.wantsRetry f o := by
      cases o <;> rfl
    have hover : ∀ retry, (q.setPhase g (.over (.ran o retry))).part id =
        (q.part id).setPhase (q.place id g) (.over (.ran o (retry.map fun _ => 0))) :=
      fun retry => part_setPhase hf hid _
    have hover' : ∀ retry, ((q.part id).setPhase (q.place id g) (.over (.ran o retry))).part id =
        (q.part id).setPhase (q.place id g) (.over (.ran o (retry.map fun _ => 0))) := by
      intro retry
      rw [part_setPhase hf' hid', part_part, place_place]
      rfl
    simp only [settle, hf, hf', hp, hp', hid, hid', hwants, isPending_part]
    split
    · rw [part_arm hid ((hs.owned id).setPhase g _), hover]
      rw [part_arm hid' ((hs.owned id).part.setPhase _ _), hover']
      rfl
    · rw [hover, hover']
  | «over» ending =>
    cases ending <;>
      simpa only [settle, hf, hf', hp, seat, Phase.coded] using part_part.symm
  | _ => simpa only [settle, hf, hf', hp, seat, Phase.coded] using part_part.symm

end

theorem part_schedule (ho : q.Owned id) {task : Task} (htask : task.dedupId = id) :
    (q.schedule task).1.part id = ((q.part id).schedule task).1.part id := by
  unfold schedule
  rw [closed_part, handlers_part]
  split
  · exact part_part.symm
  · split
    · exact part_part.symm
    · exact (part_arm htask ho ..).trans (by rw [part_arm htask ho.part, part_part])

theorem part_shutdown : q.shutdown.part id = (q.part id).shutdown := by
  have hfirings : Places.share (isOf id) (seat (q.lockCode id)) (q.firings.map callOff) =
      (q.part id).firings.map callOff := Places.share_map isOf_callOff (seat_callOff _)
  change ({ q.part id with
    closed := true
    firings := Places.share (isOf id) (seat (q.lockCode id)) (q.firings.map callOff)
    timers := [] } : Queue) = _
  rw [hfirings]
  rfl

def Event.concerns (q : Queue) (id : String) : Event → Bool
  | .schedule task => task.dedupId = id
  | .wait _ | .shutdown => true
  | .wake g | .claim g | .takeHandle g | .acquire g | .finish g _ | .unlock g | .tidy g
  | .dropHandle g | .settle g _ => (q.firing? g).any (isOf id)

/-- What an event makes of a part depends on the part. -/
theorem part_step (hs : q.Sound) (ha : q.Apart) {e : Event} (he : e.concerns q id) :
    (q.step e).part id = ((q.part id).step (e.renamed (q.place id))).part id := by
  have hown : ∀ {g}, (q.firing? g).any (isOf id) →
      ∃ f, q.firing? g = some f ∧ f.task.dedupId = id := by
    intro g hg
    obtain ⟨f, hf, hof⟩ := (Option.any_eq_true ..).mp hg
    exact ⟨f, hf, isOf_iff.mp hof⟩
  cases e with
  | schedule task => exact part_schedule (hs.owned id) (of_decide_eq_true he)
  | wait millis => exact part_of_eq rfl
  | shutdown => exact part_of_eq part_shutdown
  | wake g =>
    obtain ⟨f, hf, hid⟩ := hown he
    exact part_of_eq (part_wake hf hid)
  | claim g =>
    obtain ⟨f, hf, hid⟩ := hown he
    exact part_of_eq (part_claim hf hid hs)
  | takeHandle g =>
    obtain ⟨f, hf, hid⟩ := hown he
    exact part_takeHandle hf hid ha
  | acquire g =>
    obtain ⟨f, hf, hid⟩ := hown he
    exact part_of_eq (part_acquire hf hid hs ha)
  | finish g o =>
    obtain ⟨f, hf, hid⟩ := hown he
    exact part_of_eq (part_finish hf hid o)
  | unlock g =>
    obtain ⟨f, hf, hid⟩ := hown he
    exact part_of_eq (part_unlock hf hid)
  | tidy g =>
    obtain ⟨f, hf, hid⟩ := hown he
    exact part_tidy hf hid hs ha
  | dropHandle g =>
    obtain ⟨f, hf, hid⟩ := hown he
    exact part_of_eq (part_dropHandle hf hid)
  | settle g jitter =>
    obtain ⟨f, hf, hid⟩ := hown he
    exact part_settle hf hid hs jitter

/-- Firings keep their places. -/
theorem place_step (hf : q.firing? g = some f) (e : Event) :
    (q.step e).place id g = q.place id g := by
  refine Places.rank_congr fun k hk => ?_
  have hlt : k < q.firings.length := Nat.lt_trans hk (firing?_lt hf)
  have hold : q.firing? k = some q.firings[k] := List.getElem?_eq_getElem hlt
  obtain ⟨p, hp, -⟩ := (changes_step q e).follows hold
  rw [show (q.step e).firings[k]? = _ from hp, show q.firings[k]? = _ from hold]
  rfl

end Queue
end ChatRelay.Timer
