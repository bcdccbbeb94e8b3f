import Web3PiUps.FwOtaDownload

/-! `ota_task` never splices and never commits unverified bytes: what it needs before each
call it has, whatever the calls answer. -/
namespace Web3PiUps.FwOtaDownload
open WupsProtocol (Bytes ascii)
open Tasks Code

variable {job : Job}

/-- What holds of the handle, the slot and the clock when `finish` is called. -/
structure Committed (job : Job) (w : World) : Prop where
  live : w.live = true
  written : w.count = job.len
  complete : w.complete = true
  readBack : ∃ image, w.readBack = some image ∧ image.length = job.len ∧ job.sha256 image = job.shaExpected
  early : ∃ start, w.firstClock = some start ∧ w.clock < start+fwOtaTimeoutUs
  placed : ∀ i < job.len, Placed job w i

def need (job : Job) (w : World) : Act → Prop
  | .begin offset => w.live = false ∧ w.begun.length < fwOtaMaxAttempts ∧
      (offset = 0 ∨ w.reported = some (offset : Int))
  | .perform => w.live = true ∧ ∃ a, w.begun.getLast? = some a ∧ Accepted job a
  | .isCompleteDataReceived | .abort => w.live = true
  | .finish => Committed job w
  | _ => True

def rules (job : Job) : Rules Ans World := ⟨need job,fun _ _ _ => True,World.after⟩

abbrev Holds {α : Type} (job : Job) (last : α → World → Prop) (c : Code Ans α) (w : World) : Prop :=
  Keeps (rules job) last c w

/-! What the variables say of the calls so far. -/

structure Basic (v : Vars) (w : World) : Prop where
  started : ∃ start, w.firstClock = some start ∧ v.deadlineUs = start+fwOtaTimeoutUs
  handle : v.handle = w.live

/-- The checkpoint stands for bytes that are in the slot, and nothing was read back yet. -/
structure Saved (job : Job) (v : Vars) (w : World) : Prop where
  counted : v.checkpoint = 0 ∨ w.reported = some (v.checkpoint : Int)
  placed : ∀ i < v.checkpoint, Placed job w i
  unread : w.readBack = some []

/-- Attempt `n`, answered `a`, is being read. -/
structure Reading (job : Job) (n : Nat) (a : Attempt) (v : Vars) (w : World) : Prop where
  basic : Basic v w
  saved : Saved job v w
  attempts : w.begun.length = n
  last : w.begun.getLast? = some a
  accepted : Accepted job a
  live : w.live = true
  count : w.count = v.checkpoint
  consumed : a.offset+w.consumed = v.checkpoint

structure Failed (job : Job) (n : Nat) (retry : Bool) (v : Vars) (w : World) : Prop where
  basic : Basic v w
  attempts : w.begun.length = n
  saved : retry = true → Saved job v w

/-- The variables that the invariants are about. -/
structure Alike (v v' : Vars) : Prop where
  handle : v'.handle = v.handle
  deadlineUs : v'.deadlineUs = v.deadlineUs
  checkpoint : v'.checkpoint = v.checkpoint

variable {n : Nat} {a : Attempt} {v v' : Vars} {w : World} {retry : Bool}

theorem Basic.alike (b : Basic v w) (same : Alike v v') : Basic v' w :=
  ⟨by rw [same.deadlineUs]; exact b.started,by rw [same.handle]; exact b.handle⟩

theorem Saved.alike (s : Saved job v w) (same : Alike v v') : Saved job v' w :=
  ⟨by rw [same.checkpoint]; exact s.counted,by rw [same.checkpoint]; exact s.placed,s.unread⟩

theorem Reading.alike (r : Reading job n a v w) (same : Alike v v') : Reading job n a v' w :=
  ⟨r.basic.alike same,r.saved.alike same,r.attempts,r.last,r.accepted,r.live,
    by rw [same.checkpoint]; exact r.count,by rw [same.checkpoint]; exact r.consumed⟩

theorem Failed.alike (f : Failed job n retry v w) (same : Alike v v') : Failed job n retry v' w :=
  ⟨f.basic.alike same,f.attempts,fun yes => (f.saved yes).alike same⟩

theorem Reading.failed (r : Reading job n a v w) : Failed job n retry v w :=
  ⟨r.basic,r.attempts,fun _ => r.saved⟩

theorem Basic.tick (b : Basic v w) (now : Int) : Basic v (w.tick now) := by
  obtain ⟨start,first,deadline⟩ := b.started
  refine ⟨⟨start,?_,deadline⟩,b.handle⟩
  show some (w.firstClock.getD now) = some start
  rw [first]
  rfl

theorem Saved.tick (s : Saved job v w) (now : Int) : Saved job v (w.tick now) :=
  ⟨s.counted,s.placed,s.unread⟩

theorem Reading.tick (r : Reading job n a v w) (now : Int) : Reading job n a v (w.tick now) :=
  ⟨r.basic.tick now,r.saved.tick now,r.attempts,r.last,r.accepted,r.live,r.count,r.consumed⟩

theorem Failed.tick (f : Failed job n retry v w) (now : Int) :
    Failed job n retry v (w.tick now) :=
  ⟨f.basic.tick now,f.attempts,fun yes => (f.saved yes).tick now⟩

theorem Basic.performed (b : Basic v w) (p : Performed) : Basic v (w.performed p) := by
  unfold World.performed
  split <;> exact ⟨b.started,b.handle⟩

theorem performedBegun (w : World) (p : Performed) : (w.performed p).begun = w.begun := by
  unfold World.performed
  split <;> rfl

theorem performedKeeps (p : Performed) {i : Nat} (below : (i : Int) < w.count) :
    (w.performed p).slot i = w.slot i := by
  unfold World.performed
  split <;> exact if_pos below

theorem Placed.performed {i : Nat} (placed : Placed job w i) (p : Performed) (below : (i : Int) < w.count) :
    Placed job (w.performed p) i := by
  obtain ⟨cell,a,here,source,rest⟩ := placed
  exact ⟨cell,a,by rw [performedKeeps p below]; exact here,by rw [performedBegun]; exact source,rest⟩

theorem Reading.performedFails (r : Reading job n a v w) {p : Performed} (fails : p.succeeded = false) :
    Reading job n a v (w.performed p) := by
  have placed : ∀ i < v.checkpoint, Placed job (w.performed p) i := fun i inside =>
    (r.saved.placed i inside).performed p (by rw [r.count]; omega)
  have same : w.performed p = { w with
      complete := false, readBack := some [], slot := (w.performed p).slot } := by
    unfold World.performed
    rw [fails]
    rfl
  rw [same] at placed ⊢
  exact ⟨⟨r.basic.started,r.basic.handle⟩,⟨r.saved.counted,placed,rfl⟩,r.attempts,r.last,r.accepted,r.live,
    r.count,r.consumed⟩

theorem Reading.appended (r : Reading job n a v w) {p : Performed} (done : p.succeeded = true) {i : Nat}
    (from_ : v.checkpoint ≤ i) (below : (i : Int) < p.imageLenRead) : Placed job (w.performed p) i := by
  have start := (validFits r.accepted.valid).start
  refine ⟨⟨w.begun.length-1,w.consumed+(i-w.count).toNat⟩,a,?_,?_,r.accepted,?_⟩
  · unfold World.performed
    rw [if_pos done]
    show (if (i : Int) < w.count then _ else _) = _
    rw [if_neg (by rw [r.count]; omega),if_pos below]
  · rw [performedBegun,← List.getLast?_eq_getElem?]
    exact r.last
  · show _+(w.consumed+((i : Int)-w.count).toNat) = i
    rw [start,r.count]
    have consumed := r.consumed
    omega

theorem Reading.performedOk (r : Reading job n a v w) {p : Performed} (done : p.succeeded = true) {read : Nat}
    (said : p.imageLenRead = read) (grown : v.checkpoint ≤ read) :
    Reading job n a { v with checkpoint := read } (w.performed p) := by
  have placed : ∀ i < read, Placed job (w.performed p) i := by
    intro i inside
    rcases Nat.lt_or_ge i v.checkpoint with old | new
    · exact (r.saved.placed i old).performed p (by rw [r.count]; omega)
    · exact r.appended done new (by omega)
  have same : w.performed p = { w with
      count := p.imageLenRead, consumed := w.consumed+(p.imageLenRead-w.count).toNat
      reported := some p.imageLenRead, complete := false, readBack := some []
      slot := (w.performed p).slot } := by
    unfold World.performed
    rw [if_pos done]
  rw [same] at placed ⊢
  have consumed := r.consumed
  have count := r.count
  refine ⟨⟨r.basic.started,r.basic.handle⟩,⟨Or.inr (congrArg some said),placed,rfl⟩,r.attempts,r.last,r.accepted,
    r.live,said,?_⟩
  show a.offset+(w.consumed+(p.imageLenRead-w.count).toNat) = read
  omega

theorem asks {α : Type} {last : α → World → Prop} {c : Act} {f : Ans c → Code Ans α}
    (needs : need job w c) (rest : ∀ r, Holds job last (f r) (w.after c r)) :
    Holds job last (ask c >>= f) w :=
  ⟨needs,fun r _ => rest r⟩

theorem captureHolds (v : Vars) (w : World) :
    Holds job (fun v' w' => w' = w ∧ Alike v v') (capture v) w :=
  keepsIte (fun _ => ⟨rfl,rfl,rfl,rfl⟩) fun _ => ⟨trivial,fun _ _ => ⟨rfl,rfl,rfl,rfl⟩⟩

theorem reportHolds (r : Reading job n a v w) :
    Holds job (fun v' w' => Reading job n a v' w') (reportProgress job v) w :=
  keepsIte (fun _ => ⟨trivial,fun _ _ => r.alike ⟨rfl,rfl,rfl⟩⟩) fun _ => r

theorem writtenHolds {read : Nat} (r : Reading job n a { v with checkpoint := read } w)
    (grown : v.checkpoint ≤ read) (progressUs : Int) :
    Holds job (fun r w' => Reading job n a r.1 w') (written v read progressUs) w := by
  refine keepsIte (fun _ => ⟨trivial,fun now _ => r.tick now⟩) fun same => ?_
  exact r.alike ⟨rfl,rfl,show v.checkpoint = read by omega⟩

/-- What an attempt leaves: all data, or a state to fail or retry from. -/
def Ended (job : Job) (n : Nat) (finished : Vars → World → Prop) (r : Vars × Outcome) (w : World) : Prop :=
  match r.2 with
  | .done => finished r.1 w
  | .failed retry => Failed job n retry r.1 w
  | .running => True

theorem performLoopHolds {fuel : Nat} (r : Reading job n a v w) (progressUs : Int) :
    Holds job (Ended job n (Reading job n a)) (performLoop job fuel v progressUs) w := by
  induction fuel generalizing v w progressUs with
  | zero => exact trivial
  | succ fuel ih =>
    refine ⟨trivial,fun (now : Int) _ => keepsIte (p := now ≥ v.deadlineUs)
      (fun _ => (r.tick now).failed.alike ⟨rfl,rfl,rfl⟩) fun _ => ?_⟩
    refine ⟨⟨r.live,a,r.last,r.accepted⟩,fun (p : Performed) _ => keepsIte (fun fails => ?_) fun succeeds => ?_⟩
    · have unsure : p.succeeded = false := by
        rw [Performed.succeeded,beq_eq_false_iff_ne.mpr fails.1,beq_eq_false_iff_ne.mpr fails.2]
        rfl
      refine keepsBind (captureHolds _ _) fun v' w' kept => ?_
      obtain ⟨rfl,same⟩ := kept
      exact ((r.tick now).performedFails unsure).failed.alike ⟨same.handle,same.deadlineUs,same.checkpoint⟩
    · have done : p.succeeded = true := by
        by_contra unsure
        simp [Performed.succeeded] at unsure
        exact succeeds unsure
      have basic := ((r.tick now).basic.performed p)
      have attempts : ((w.tick now).performed p).begun.length = n := by
        rw [performedBegun]
        exact r.attempts
      refine ⟨trivial,fun (later : Int) _ => keepsIte (p := later ≥ v.deadlineUs)
        (fun _ => ⟨(basic.tick later).alike ⟨rfl,rfl,rfl⟩,attempts,nofun⟩) fun _ => ?_⟩
      refine keepsIte (fun _ => ⟨(basic.tick later).alike ⟨rfl,rfl,rfl⟩,attempts,nofun⟩) fun sound => ?_
      have sound : ¬(p.imageLenRead < 0 ∨ p.imageLenRead.toNat < v.checkpoint ∨ p.imageLenRead.toNat > job.len) :=
        sound
      have said : p.imageLenRead = p.imageLenRead.toNat := by omega
      have grown : v.checkpoint ≤ p.imageLenRead.toNat := by omega
      have now' := ((r.tick now).performedOk done said grown).tick later
      refine keepsBind (writtenHolds (v := { v with diag := p.callbacks.foldl otaHttpEvent v.diag })
        (now'.alike ⟨rfl,rfl,rfl⟩) grown progressUs) fun x w' reading => ?_
      refine keepsBind (reportHolds reading) fun v' w' reading => ?_
      refine keepsIte (fun _ => reading) fun _ => ?_
      refine ⟨trivial,fun (last : Int) _ => keepsIte (p := last-x.2 ≥ noProgressUs)
        (fun _ => (reading.tick last).failed.alike ⟨rfl,rfl,rfl⟩) fun _ => ih (reading.tick last) x.2⟩

def Complete (job : Job) (n : Nat) (a : Attempt) (v : Vars) (w : World) : Prop :=
  Reading job n a v w ∧ v.checkpoint = job.len ∧ w.complete = true

theorem downloadHolds {fuel : Nat} (r : Reading job n a v w) :
    Holds job (Ended job n (Complete job n a)) (downloadBody job fuel v) w := by
  refine asks trivial fun (now : Int) => ?_
  refine keepsBind (performLoopHolds (v := { v with stage := "download" })
    ((r.tick now).alike ⟨rfl,rfl,rfl⟩) now) fun x w' ended => ?_
  obtain ⟨v',outcome⟩ := x
  cases outcome with
  | running => exact trivial
  | failed retry => exact ended
  | done =>
    have reading : Reading job n a v' w' := ended
    refine ⟨reading.live,fun (complete : Bool) _ => keepsIte (fun _ => ?_) fun all => ?_⟩
    · exact ⟨⟨reading.basic.started,reading.basic.handle⟩,reading.attempts,
        fun _ => ⟨reading.saved.counted,reading.saved.placed,reading.saved.unread⟩⟩
    · have all : complete = true ∧ v'.checkpoint = job.len := by simpa using all
      exact ⟨⟨⟨reading.basic.started,reading.basic.handle⟩,⟨reading.saved.counted,reading.saved.placed,reading.saved.unread⟩,
        reading.attempts,reading.last,reading.accepted,reading.live,reading.count,reading.consumed⟩,all.2,all.1⟩

theorem acceptedHolds (offset : Nat) :
    Holds job (fun yes w' => w' = w ∧ (yes = true →
      fwOtaHttpResponseValid v.diag.response offset job.len = true)) (responseAccepted job v offset) w := by
  refine keepsIte (fun _ => ⟨rfl,nofun⟩) fun good => ⟨trivial,fun (chunked : Bool) _ => ?_⟩
  have valid : fwOtaHttpResponseValid v.diag.response offset job.len = true := by
    simp only [Bool.or_eq_true,Bool.not_eq_true',not_or,Bool.not_eq_false] at good
    exact good.1
  cases chunked with
  | true => exact ⟨rfl,nofun⟩
  | false => exact ⟨trivial,fun _ _ => ⟨rfl,fun _ => valid⟩⟩

theorem Placed.begun {i : Nat} (placed : Placed job w i) (offset : Nat) (r : Began) :
    Placed job (w.after (.begin offset) r) i := by
  obtain ⟨cell,a,here,source,rest⟩ := placed
  refine ⟨cell,a,here,?_,rest⟩
  show (w.begun ++ [_])[cell.attempt]? = some a
  rw [List.getElem?_append_left (List.getElem?_eq_some_iff.mp source).1]
  exact source

/-- Between two attempts. -/
structure Waiting (job : Job) (n : Nat) (v : Vars) (w : World) : Prop where
  basic : Basic v w
  saved : Saved job v w
  closed : w.live = false
  attempts : w.begun.length = n

theorem acceptedAttempt {offset : Nat} {r : Began} (ok : r.err = .ok)
    (valid : fwOtaHttpResponseValid (r.callbacks.foldl otaHttpEvent (.init offset)).response offset job.len = true)
    (kept : (r.callbacks.foldl otaHttpEvent (.init offset)).rangeFallback = false) :
    Accepted job ⟨offset,r⟩ := by
  have known := remembers offset r.callbacks
  refine ⟨ok,?_,?_⟩
  · rw [known.response] at valid
    exact valid
  · rw [known.fallback] at kept
    simpa [Attempt.exchange] using kept

theorem attemptHolds {fuel : Nat} (top : Waiting job n v w) (few : n < fwOtaMaxAttempts) :
    Holds job (Ended job (n+1) fun v' w' => ∃ a, Complete job (n+1) a v' w') (attemptOnce job fuel v) w := by
  obtain ⟨basic,saved,closed,attempts⟩ := top
  unfold attemptOnce
  generalize chosen : (if v.checkpoint < fwOtaResumeMin then 0 else v.checkpoint) = offset
  have kept : offset = 0 ∨ offset = v.checkpoint := by
    rw [← chosen]
    split
    · exact Or.inl rfl
    · exact Or.inr rfl
  have counted : offset = 0 ∨ w.reported = some (offset : Int) := by
    rcases kept with zero | same
    · exact Or.inl zero
    · rw [same]; exact saved.counted
  refine asks ⟨closed,by omega,counted⟩ fun (r : Began) => ?_
  let opened : Vars := { v with checkpoint := offset, handle := r.err == .ok }
  have later : Saved job opened (w.after (.begin offset) r) := by
    refine ⟨counted,fun i (inside : i < offset) => (saved.placed i ?_).begun offset r,saved.unread⟩
    omega
  have basics : Basic opened (w.after (.begin offset) r) := ⟨basic.started,rfl⟩
  have grown : (w.after (.begin offset) r).begun.length = n+1 := by
    show (w.begun ++ [_]).length = n+1
    rw [List.length_append,attempts]
    rfl
  refine keepsIte (fun _ => ?_) fun ok => ?_
  · exact ⟨basics.alike ⟨rfl,rfl,rfl⟩,grown,fun _ => later.alike ⟨rfl,rfl,rfl⟩⟩
  have ok : r.err = .ok := by simpa using ok
  refine asks trivial fun (now : Int) => ?_
  refine keepsIte (fun _ => ⟨(basics.tick now).alike ⟨rfl,rfl,rfl⟩,grown,nofun⟩) fun _ => ?_
  refine keepsIte (fun _ => ?_) fun unrejected => ?_
  · exact ⟨⟨(basics.tick now).started,(basics.tick now).handle⟩,grown,fun _ => ⟨Or.inl rfl,nofun,later.unread⟩⟩
  refine keepsBind (acceptedHolds offset) fun yes w' known => ?_
  obtain ⟨rfl,valid⟩ := known
  refine keepsIte (fun _ => ⟨(basics.tick now).alike ⟨rfl,rfl,rfl⟩,grown,nofun⟩) fun accepted => ?_
  have accepted : yes = true := by simpa using accepted
  have good := acceptedAttempt ok (valid accepted) (by simpa using unrejected)
  have reading : Reading job (n+1) ⟨offset,r⟩ opened ((w.after (.begin offset) r).tick now) := by
    refine ⟨basics.tick now,later.tick now,grown,?_,good,?_,rfl,rfl⟩
    · exact List.getLast?_concat
    · show (r.err == .ok) = true
      rw [ok]
      rfl
  refine keepsMono (downloadHolds (reading.alike ⟨rfl,rfl,rfl⟩)) fun x w' ended => ?_
  obtain ⟨v',outcome⟩ := x
  cases outcome with
  | done => exact ⟨_,ended⟩
  | failed retry => exact ended
  | running => exact trivial

theorem abortHolds (basic : Basic v w) :
    Holds job (fun v' w' => v' = { v with handle := false } ∧ w' = { w with live := false })
      (abortHandle v) w := by
  refine keepsIte (fun none => ?_) fun some => ?_
  · have none : v.handle = false := by simpa using none
    have closed : w.live = false := basic.handle.symm.trans none
    exact ⟨by rw [← none],by rw [← closed]⟩
  · have some : v.handle = true := by simpa using some
    exact ⟨basic.handle.symm.trans some,fun _ _ => ⟨rfl,rfl⟩⟩

theorem failedHolds (f : Failed job n retry v w) :
    Holds job (fun r w' => Basic r.1 w' ∧ (r.2 = true → Waiting job n r.1 w' ∧ n < fwOtaMaxAttempts))
      (attemptFailed job n v retry) w := by
  unfold attemptFailed
  refine keepsBind (captureHolds v w) fun v' w' known => ?_
  obtain ⟨rfl,same⟩ := known
  have f := f.alike same
  refine keepsBind (abortHolds f.basic) fun v'' w'' known => ?_
  obtain ⟨rfl,rfl⟩ := known
  refine keepsIte (fun _ => ⟨⟨f.basic.started,rfl⟩,nofun⟩) fun again => ?_
  simp only [Bool.or_eq_true,Bool.not_eq_true',decide_eq_true_eq,not_or,Bool.not_eq_false] at again
  obtain ⟨⟨retries,delay⟩,_⟩ := again
  refine asks trivial fun (now : Int) => ?_
  have basic : Basic { v' with handle := false, diag := { v'.diag with client := false } }
      (World.tick { w' with live := false } now) :=
    ⟨(f.basic.tick now).started,rfl⟩
  refine keepsIte (fun _ => ⟨basic.alike ⟨rfl,rfl,rfl⟩,nofun⟩) fun _ => ?_
  refine asks trivial fun _ => asks trivial fun _ => ⟨basic,fun _ => ⟨⟨basic,?_,rfl,f.attempts⟩,delayBelow delay⟩⟩
  exact ⟨(f.saved retries).counted,(f.saved retries).placed,(f.saved retries).unread⟩

def LoopEnded (job : Job) (r : Vars × LoopEnd) (w : World) : Prop :=
  match r.2 with
  | .left => ∃ n a, Complete job n a r.1 w
  | .fail => Basic r.1 w
  | .running => True

theorem attemptLoopHolds {fuel remaining : Nat} (top : Waiting job n v w) (few : n < fwOtaMaxAttempts)
    (all : n+remaining = fwOtaMaxAttempts) :
    Holds job (LoopEnded job) (attemptLoop job fuel remaining (n+1) v) w := by
  induction remaining generalizing n v w with
  | zero => omega
  | succ remaining ih =>
    refine asks trivial fun (now : Int) => ?_
    refine keepsIte (fun _ => (top.basic.tick now).alike ⟨rfl,rfl,rfl⟩) fun _ => ?_
    have top : Waiting job n v (w.tick now) :=
      ⟨top.basic.tick now,top.saved.tick now,top.closed,top.attempts⟩
    refine keepsBind (attemptHolds top few) fun x w' ended => ?_
    obtain ⟨v',outcome⟩ := x
    cases outcome with
    | done =>
      obtain ⟨a,complete⟩ := ended
      exact ⟨n+1,a,complete⟩
    | running => exact trivial
    | failed retry =>
      refine keepsBind (failedHolds ended) fun x w'' known => ?_
      refine keepsIte (fun again => ?_) fun _ => known.1
      obtain ⟨waiting,few⟩ := known.2 again
      exact ih waiting few (by omega)

/-- The read-back has read `image` from the first `off` bytes of the slot; where a
`uint32_t` wraps, it never ends. -/
structure ReadSoFar (job : Job) (w w' : World) (off : Nat) (image : Bytes) : Prop where
  rest : w' = { w with readBack := w'.readBack }
  aligned : off % fwOtaReadbackChunk = 0
  fits : off < 2^32
  read : job.len ≤ 2^32-fwOtaReadbackChunk → w'.readBack = some image ∧ image.length = min off job.len

theorem ReadSoFar.next {w' : World} {off : Nat} {image : Bytes} (so : ReadSoFar job w w' off image)
    (more : off < job.len) (chunk : { chunk : Bytes // chunk.length = min (job.len-off) fwOtaReadbackChunk }) :
    ReadSoFar job w (w'.after (.partitionRead off (min (job.len-off) fwOtaReadbackChunk)) (some chunk))
      ((off+fwOtaReadbackChunk)%2^32) (image ++ chunk.1) := by
  have aligned : off % 4096 = 0 := so.aligned
  refine ⟨?_,show (off+4096)%2^32%4096 = 0 by omega,Nat.mod_lt _ (by decide),fun small => ?_⟩
  · show { w' with readBack := _ } = _
    rw [so.rest]
    rfl
  · obtain ⟨same,length⟩ := so.read small
    have length : image.length = off := by rw [length]; omega
    constructor
    · show (w'.readBack.bind fun image => if off = image.length then some (image ++ chunk.1) else none) = _
      rw [same]
      exact if_pos length.symm
    · rw [List.length_append,chunk.2,length]
      omega

def ReadAll (job : Job) (w : World) (r : ReadBack) (w' : World) : Prop :=
  w' = { w with readBack := w'.readBack } ∧
    ∀ image, r = .read image → w'.readBack = some image ∧ image.length = job.len

theorem readHolds {fuel off : Nat} {image : Bytes} {w' : World} (so : ReadSoFar job w w' off image) :
    Holds job (ReadAll job w) (readChunks job fuel off image) w' := by
  induction fuel generalizing off image w' with
  | zero => exact ⟨so.rest,nofun⟩
  | succ fuel ih =>
    refine keepsIte (fun past => ⟨so.rest,fun _ same => ?_⟩) fun more => ?_
    · cases same
      have aligned : off % 4096 = 0 := so.aligned
      have fits := so.fits
      obtain ⟨read,length⟩ := so.read (show job.len ≤ 2^32-4096 by omega)
      exact ⟨read,by rw [length]; omega⟩
    · refine asks trivial fun
        (chunk : Option { chunk : Bytes // chunk.length = min (job.len-off) fwOtaReadbackChunk }) => ?_
      cases chunk with
      | none =>
        refine ⟨?_,nofun⟩
        show { w' with readBack := _ } = _
        rw [so.rest]
        rfl
      | some chunk => exact ih (so.next (by omega) chunk)

def Verified (job : Job) (w : World) (r : Option Bool) (w' : World) : Prop :=
  w' = { w with readBack := w'.readBack } ∧ (r = some true →
    ∃ image, w'.readBack = some image ∧ image.length = job.len ∧ job.sha256 image = job.shaExpected)

theorem verifyHolds {fuel : Nat} (unread : w.readBack = some []) :
    Holds job (Verified job w) (verifyWrittenImage job fuel) w := by
  refine asks trivial fun (heap : Bool) => keepsIte (fun _ => ⟨rfl,nofun⟩) fun _ => ?_
  have start : ReadSoFar job w w 0 [] := ⟨rfl,rfl,by decide,fun _ => ⟨unread,(Nat.zero_min _).symm⟩⟩
  refine keepsBind (readHolds start) fun r w' all => ?_
  cases r with
  | running => exact ⟨all.1,nofun⟩
  | failed => exact ⟨all.1,nofun⟩
  | read image =>
    refine ⟨all.1,fun same => ?_⟩
    obtain ⟨read,length⟩ := all.2 image rfl
    exact ⟨image,read,length,by simpa using same⟩

theorem failHolds (basic : Basic v w) : Holds job (fun _ _ => True) (fail v) w :=
  keepsBind (abortHolds basic) fun _ _ _ => asks trivial fun _ => asks trivial fun _ => ⟨trivial,fun _ _ => trivial⟩

theorem commitHolds {fuel : Nat} (complete : Complete job n a v w) :
    Holds job (fun _ _ => True) (commit job fuel v) w := by
  obtain ⟨reading,full,complete⟩ := complete
  refine asks trivial fun (now : Int) => ?_
  have reading := reading.tick now
  refine keepsIte (fun _ => failHolds (reading.basic.alike ⟨rfl,rfl,rfl⟩)) fun _ => ?_
  refine asks trivial fun _ => ?_
  refine keepsBind (verifyHolds reading.saved.unread) fun r w' verified => ?_
  obtain ⟨rest,digest⟩ := verified
  have basic : Basic v w' := by
    rw [rest]
    exact ⟨reading.basic.started,reading.basic.handle⟩
  cases r with
  | none => exact trivial
  | some ok =>
    cases ok with
    | false => exact failHolds (basic.alike ⟨rfl,rfl,rfl⟩)
    | true =>
      refine asks trivial fun (later : Int) => ?_
      refine keepsIte (fun _ => failHolds ((basic.tick later).alike ⟨rfl,rfl,rfl⟩)) fun early => ?_
      have committed : Committed job (w'.tick later) := by
        obtain ⟨start,first,deadline⟩ := (basic.tick later).started
        refine ⟨?_,?_,?_,digest rfl,⟨start,first,show later < start+fwOtaTimeoutUs from ?_⟩,?_⟩
        · rw [rest]; exact reading.live
        · rw [rest]; exact reading.count.trans (congrArg _ full)
        · rw [rest]; exact complete
        · rw [← deadline]; exact Int.not_le.mp early
        · rw [rest,← full]; exact reading.saved.placed
      refine asks committed fun (err : EspErr) => ?_
      have closed : Basic { v with stage := "finish", handle := false, diag := { v.diag with client := false } }
          ((w'.tick later).after .finish err) := ⟨(basic.tick later).started,rfl⟩
      refine keepsIte (fun _ => failHolds (closed.alike ⟨rfl,rfl,rfl⟩)) fun _ => ?_
      exact asks trivial fun _ => asks trivial fun _ => ⟨trivial,fun _ _ => trivial⟩

theorem taskHolds (job : Job) (fuel : Nat) : Holds job (fun _ _ => True) (otaTask job fuel) .init := by
  refine asks trivial fun (now : Int) => asks trivial fun _ => asks trivial fun _ => ?_
  have top : Waiting job 0 (.init (now+fwOtaTimeoutUs)) (World.init.tick now) :=
    ⟨⟨⟨now,rfl,rfl⟩,rfl⟩,⟨Or.inl rfl,nofun,rfl⟩,rfl,rfl⟩
  refine keepsBind (attemptLoopHolds top (by decide) rfl) fun x w ended => ?_
  obtain ⟨v,ends⟩ := x
  cases ends with
  | left =>
    obtain ⟨n,a,complete⟩ := ended
    exact commitHolds complete
  | fail => exact failHolds ended
  | running => exact trivial

theorem performLoopSame {k fuel fuel' : Nat} (enough : k ≤ fuel) (enough' : k ≤ fuel') (v : Vars)
    (progressUs : Int) : SameFor k (performLoop job fuel v progressUs) (performLoop job fuel' v progressUs) := by
  induction fuel generalizing k fuel' v progressUs with
  | zero =>
    cases Nat.le_zero.mp enough
    exact trivial
  | succ fuel ih =>
    cases k with
    | zero => exact trivial
    | succ k =>
      obtain ⟨fuel',rfl⟩ : ∃ m, fuel' = m+1 := ⟨fuel'-1,by omega⟩
      refine ⟨_,rfl,fun _ => sameForIte (sameForRefl _ _) (sameForBind (sameForRefl _ _) fun _ => ?_)⟩
      refine sameForIte (sameForRefl _ _) (sameForBind (sameForRefl _ _) fun _ => ?_)
      refine sameForIte (sameForRefl _ _) (sameForIte (sameForRefl _ _) ?_)
      refine sameForBind (sameForRefl _ _) fun _ => sameForBind (sameForRefl _ _) fun _ => ?_
      refine sameForIte (sameForRefl _ _) (sameForBind (sameForRefl _ _) fun _ => ?_)
      exact sameForIte (sameForRefl _ _) (ih (by omega) (by omega) _ _)

theorem readChunksSame {k fuel fuel' : Nat} (enough : k ≤ fuel) (enough' : k ≤ fuel') (off : Nat)
    (image : Bytes) : SameFor k (readChunks job fuel off image) (readChunks job fuel' off image) := by
  induction fuel generalizing k fuel' off image with
  | zero =>
    cases Nat.le_zero.mp enough
    exact trivial
  | succ fuel ih =>
    cases k with
    | zero => exact trivial
    | succ k =>
      obtain ⟨fuel',rfl⟩ : ∃ m, fuel' = m+1 := ⟨fuel'-1,by omega⟩
      refine sameForIte (sameForRefl _ _) ⟨_,rfl,fun chunk => ?_⟩
      cases chunk with
      | none => exact sameForRefl _ _
      | some chunk => exact ih (by omega) (by omega) _ _

theorem attemptSame {k fuel fuel' : Nat} (enough : k ≤ fuel) (enough' : k ≤ fuel') (v : Vars) :
    SameFor k (attemptOnce job fuel v) (attemptOnce job fuel' v) := by
  refine sameForBind (sameForRefl _ _) fun _ => ?_
  refine sameForIte (sameForRefl _ _) (sameForBind (sameForRefl _ _) fun _ => ?_)
  refine sameForIte (sameForRefl _ _) (sameForIte (sameForRefl _ _) ?_)
  refine sameForBind (sameForRefl _ _) fun _ => sameForIte (sameForRefl _ _) ?_
  refine sameForBind (sameForRefl _ _) fun _ => sameForBind (performLoopSame enough enough' _ _) fun _ => ?_
  exact sameForRefl _ _

theorem attemptLoopSame {k fuel fuel' : Nat} (enough : k ≤ fuel) (enough' : k ≤ fuel')
    (remaining attempt : Nat) (v : Vars) :
    SameFor k (attemptLoop job fuel remaining attempt v) (attemptLoop job fuel' remaining attempt v) := by
  induction remaining generalizing attempt v with
  | zero => exact sameForRefl _ _
  | succ remaining ih =>
    refine sameForBind (sameForRefl _ _) fun _ => sameForIte (sameForRefl _ _) ?_
    refine sameForBind (attemptSame enough enough' v) fun x => ?_
    obtain ⟨v',outcome⟩ := x
    cases outcome with
    | done => exact sameForRefl _ _
    | running => exact sameForRefl _ _
    | failed retry =>
      exact sameForBind (sameForRefl _ _) fun _ => sameForIte (ih _ _) (sameForRefl _ _)

theorem taskSame {k fuel fuel' : Nat} (enough : k ≤ fuel) (enough' : k ≤ fuel') :
    SameFor k (otaTask job fuel) (otaTask job fuel') := by
  refine sameForBind (sameForRefl _ _) fun _ => sameForBind (sameForRefl _ _) fun _ => ?_
  refine sameForBind (sameForRefl _ _) fun _ => sameForBind (attemptLoopSame enough enough' _ _ _) fun x => ?_
  obtain ⟨v,ends⟩ := x
  cases ends with
  | fail => exact sameForRefl _ _
  | running => exact sameForRefl _ _
  | left =>
    refine sameForBind (sameForRefl _ _) fun _ => sameForIte (sameForRefl _ _) ?_
    refine sameForBind (sameForRefl _ _) fun _ => sameForBind ?_ fun _ => sameForRefl _ _
    refine sameForBind (sameForRefl _ _) fun _ => sameForIte (sameForRefl _ _) ?_
    exact sameForBind (readChunksSame enough enough' _ _) fun _ => sameForRefl _ _

theorem fuelUnseen (job : Job) (answers : List ((c : Act) → Ans c)) {fuel fuel' : Nat}
    (enough : answers.length < fuel) (enough' : answers.length < fuel') :
    alone (rules job) (otaTask job fuel) .init answers = alone (rules job) (otaTask job fuel') .init answers :=
  sameForAlone (taskSame enough enough')

/-- Of the calls a run makes, each with the world it is made in. -/
structure NeverSplices (job : Job) (calls : List (World × Act)) : Prop where
  resumes : ∀ w offset, (w,Act.begin offset) ∈ calls → offset = 0 ∨ w.reported = some (offset : Int)
  validated : ∀ w, (w,Act.perform) ∈ calls → w.live = true ∧ ∃ a, w.begun.getLast? = some a ∧ Accepted job a
  committed : ∀ w, (w,Act.finish) ∈ calls → Committed job w
  consumed : ∀ w, (w,Act.abort) ∈ calls → w.live = true
  attempts : calls.countP (fun x => x.2.isBegin) ≤ fwOtaMaxAttempts

theorem beginsAdd (job : Job) (w : World) (c : Act) (r : Ans c) :
    ((rules job).after w c r).begun.length = w.begun.length+c.isBegin.toNat := by
  cases c with
  | begin offset => exact List.length_append
  | perform => exact congrArg List.length (performedBegun w r)
  | _ => rfl

/-- Whatever the server, the network, TLS, the flash and the clock answer. -/
theorem neverSplices (job : Job) (fuel : Nat) (answers : List ((c : Act) → Ans c)) :
    NeverSplices job (alone (rules job) (otaTask job fuel) .init answers) := by
  have needed := neededBefore (taskHolds job fuel) (fun _ _ _ => trivial) answers
  refine ⟨fun w offset inside => (needed _ inside).2.2,fun w inside => needed _ inside,
    fun w inside => needed _ inside,fun w inside => needed _ inside,?_⟩
  have few := countedBelow (n := fwOtaMaxAttempts) (p := Act.isBegin)
    (m := fun w : World => w.begun.length) (beginsAdd job) (c := otaTask job fuel) (h := World.init) answers
    (fun x inside begins => ?_) (by decide)
  · simpa [World.init] using few
  · obtain ⟨w,c⟩ := x
    cases c with
    | begin offset => exact (needed _ inside).2.1
    | _ => exact nomatch begins

/-- A server that answers with three bytes, and a flash that reads back what it is asked for. -/
def goodAnswers : (c : Act) → Ans c
  | .getTime => (0 : Int)
  | .begin _ => ⟨.ok,[⟨true,.onStatusCode 200⟩,⟨true,.onHeader (some (ascii "content-length")) (some (ascii "3"))⟩]⟩
  | .perform => ⟨.ok,[],nofun,3,fun _ => none⟩
  | .captureErrors => ⟨0,.ok,0,0⟩
  | .finish => EspErr.ok
  | .isChunkedResponse => false
  | .isOverSsl | .isCompleteDataReceived | .malloc => true
  | .partitionRead _ n => some ⟨List.replicate n 7,List.length_replicate⟩
  | .emitStatus _ | .banner _ | .abort | .delay _ | .restart | .releaseInProgress => ()

example : ((alone (rules ⟨3,[7,7,7],id,fun _ => ""⟩) (otaTask ⟨3,[7,7,7],id,fun _ => ""⟩ 9) .init
    (List.replicate 30 goodAnswers)).map Prod.snd).drop 17 =
      [.partitionRead 0 3,.getTime,.finish,.emitStatus .rebooting,.delay 2000,.restart] := by
  decide +kernel
end Web3PiUps.FwOtaDownload
