import Mathlib.Tactic.IntervalCases
import Web3PiUps.HttpAuth
import Web3PiUps.HttpBodyFits

/-! What either side of the HTTP control mode acts on. The MAC is over texts without a boundary
between them; the JSON at the end of each marks where it stands. -/
namespace Web3PiUps.HttpAuth
open WupsProtocol (Bytes ascii)
open JsonText (Json print decimal Bare Braced ObjectText noObjectWithin printBraced bracedScan scanNonzero)
open HttpBackend (Backend Moment Event Reply Answer httpRespMax buildBody bodyFields idOf handleCommand handleCommands
  handleResponse accepted ackAdd handles dispatchedIds dispatchedAppend)
open HttpServer (State Settings Queued responseBody settle)
open RecentMemory (remember rememberRecent forgottenAfter Takes flushed)

/-- What a nonce and a timestamp are made of. -/
def words : Bytes := ascii "0123456789abcdef-"

structure Documented (x : Outside) : Prop where
  bare : Bare x.number
  dumped : ∀ fields, Braced (x.dumps (.object fields))
  loaded : ∀ t fields, 0 ∉ t → x.loads t = some (.object fields) → ObjectText t
  parsed : ∀ t fields, x.parse t = some (.object fields) → ∀ b ∈ t.head?, b ∉ words

variable {x : Outside} {o : Settings}

theorem asciiList (chars : List Char) : ascii (String.ofList chars) = chars.map Char.toUInt8 := by
  rw [ascii,String.toList_ofList]

theorem wordsAre : words = [0x30,0x31,0x32,0x33,0x34,0x35,0x36,0x37,0x38,0x39,0x61,0x62,0x63,0x64,0x65,0x66,0x2D] :=
  asciiList ['0','1','2','3','4','5','6','7','8','9','a','b','c','d','e','f','-']

theorem wordPlain {b : UInt8} (word : b ∈ words) :
    b ∉ JsonText.brackets ∧ b ∉ JsonText.blanks ∧ b ≠ 0x7B ∧ b ≠ 0 ∧ 0x20 < b ∧ b < 0x7F := by
  rw [wordsAre] at word
  simp only [List.mem_cons,List.not_mem_nil,or_false] at word
  rcases word with rfl | rfl | rfl | rfl | rfl | rfl | rfl | rfl | rfl | rfl | rfl | rfl | rfl | rfl | rfl | rfl | rfl <;> decide

theorem wordForeign {b : UInt8} (word : b ∈ words) : b ≠ 0x7B ∧ b ∉ JsonText.blanks ∧ b ≠ 0 := by
  obtain ⟨-,blank,brace,zero,-⟩ := wordPlain word
  exact ⟨brace,blank,zero⟩

theorem objectHead {t : Bytes} (object : ObjectText t) : ∀ b ∈ t.head?, b ∉ words := by
  obtain ⟨blank,rest,rfl,areBlank⟩ := object.opens
  intro b first word
  obtain ⟨brace,blank_,-⟩ := wordForeign word
  cases blank with
  | nil => exact brace (Option.some.inj first).symm
  | cons c blank =>
    obtain rfl : c = b := Option.some.inj first
    exact blank_ (areBlank c List.mem_cons_self)

/-- Two readings of one text, each a head of words and a text that opens otherwise. -/
theorem bodyLonger {head text head' body : Bytes} (same : head ++ text = head' ++ body) (words_ : ∀ b ∈ head, b ∈ words)
    (opens : ∀ b ∈ body.head?, b ∉ words) : ∃ pre, text = pre ++ body ∧ head' = head ++ pre ∨ body = [] := by
  by_cases empty : body = []
  · exact ⟨[],.inr empty⟩
  rcases List.append_eq_append_iff.mp same with ⟨more,left,right⟩ | ⟨more,left,right⟩
  · exact ⟨more,.inl ⟨right,left⟩⟩
  · cases more with
    | nil =>
      rw [List.append_nil] at left
      rw [List.nil_append] at right
      exact ⟨[],.inl ⟨by rw [right]; rfl,by rw [left,List.append_nil]⟩⟩
    | cons b more =>
      have word : b ∈ words := words_ b (by rw [left]; exact List.mem_append_right _ List.mem_cons_self)
      exact absurd word (opens b (by rw [right]; rfl))

theorem framing {head text head' body : Bytes} (braced : Braced text) (words_ : ∀ b ∈ head, b ∈ words)
    (same : head' ++ body = head ++ text) (object : ObjectText body) : body = text ∧ head' = head := by
  have some_ : body ≠ [] := by
    obtain ⟨blank,rest,rfl,-⟩ := object.opens
    exact List.append_ne_nil_of_right_ne_nil _ (List.cons_ne_nil _ _)
  obtain ⟨pre,⟨whole,longer⟩ | none_⟩ := bodyLonger same.symm words_ (objectHead object)
  · by_cases begun : pre = []
    · subst begun
      rw [List.append_nil] at longer
      exact ⟨whole.symm,longer⟩
    · rw [whole] at braced
      exact absurd object (noObjectWithin braced begun)
  · exact absurd none_ some_

theorem hexWords (n : UInt32) : ∀ b ∈ hexWord n, b ∈ words := by
  have all : ∀ k < 16, JsonText.hexDigit (UInt8.ofNat k) ∈ words := by
    intro k few
    rw [wordsAre]
    interval_cases k <;> decide
  intro b there
  obtain ⟨digit,-,rfl⟩ := List.mem_map.mp there
  have small : (digit &&& 0xF).toUInt8.toNat < 16 := by
    rw [UInt32.toNat_toUInt8,UInt32.toNat_and]
    have bound : digit.toNat &&& (0xF : UInt32).toNat ≤ 15 := Nat.and_le_right
    omega
  have here := all _ small
  rwa [UInt8.ofNat_toNat] at here

theorem nonceWords (p : Post) : ∀ b ∈ p.nonce, b ∈ words := by
  intro b there
  rcases List.mem_append.mp there with first | second
  · exact hexWords _ b first
  · exact hexWords _ b second

theorem nonceLength (p : Post) : p.nonce.length = 16 := rfl

theorem decimalWords (n : Int) : ∀ b ∈ decimal n, b ∈ words := by
  have digits (n : Nat) : ∀ b ∈ JsonText.digits n, b ∈ words := by
    intro b there
    obtain ⟨c,digit,rfl⟩ := List.mem_map.mp there
    have numeral : c.isDigit = true := Nat.isDigit_of_mem_toDigits (by decide) (by decide) digit
    have all : ∀ k < 58, 48 ≤ k → UInt8.ofNat k ∈ words := by
      intro k few many
      rw [wordsAre]
      interval_cases k <;> decide
    rw [Char.isDigit,Bool.and_eq_true,decide_eq_true_eq,decide_eq_true_eq] at numeral
    exact all c.toNat (Nat.lt_succ_of_le numeral.2) numeral.1
  intro b there
  rw [decimal] at there
  split at there
  · rcases List.mem_cons.mp there with rfl | there
    · decide
    · exact digits _ b there
  · exact digits _ b there

/-- What a header carries as it is. -/
def Visible (b : UInt8) : Prop := 0x20 < b ∧ b < 0x7F
instance (b) : Decidable (Visible b) := by unfold Visible; infer_instance

theorem wordVisible {b : UInt8} (word : b ∈ words) : Visible b := by
  obtain ⟨-,-,-,-,visible⟩ := wordPlain word
  exact visible

def Timely (x : Outside) (q : Passed) : Prop :=
  ∃ ts, x.readInt q.request.ts = some ts ∧ ((q.at_ : Int)-ts).natAbs ≤ tsSkewToleranceS

inductive Requested (x : Outside) (s : Link) (r : Request) : Link → Prop where
  | refused : Requested x s r s
  | passed {seenNonces : List Bytes} (verified : verifySignature x r = true) (timely : Timely x ⟨s.now,r,false⟩)
      (new : remember nonceCacheMax s.web.seenNonces r.nonce = some seenNonces) :
      Requested x s r { s with web := { s.web with seenNonces }, passed := s.passed ++ [⟨s.now,r,false⟩] }
  | served {seenNonces : List Bytes} {state : State} {fields : List (Bytes × Json)}
      (verified : verifySignature x r = true) (timely : Timely x ⟨s.now,r,true⟩)
      (new : remember nonceCacheMax s.web.seenNonces r.nonce = some seenNonces)
      (object : x.loads r.body = some (.object fields)) :
      Requested x s r { s with
        web := ⟨state,seenNonces⟩
        handling := s.handling ++ [r.nonce]
        passed := s.passed ++ [⟨s.now,r,true⟩] }

theorem requests (s : Link) (r : Request) : Requested x s r (requested x s r) := by
  rw [requested,doPost]
  by_cases verified : verifySignature x r = true
  · rw [verified,Bool.not_true,if_neg Bool.false_ne_true]
    cases value : x.readInt r.ts with
    | none => exact .refused
    | some ts =>
      dsimp only
      by_cases stale : tsSkewToleranceS < ((s.now : Int)-ts).natAbs
      · rw [if_pos stale]
        exact .refused
      have timely (served : Bool) : Timely x ⟨s.now,r,served⟩ := ⟨ts,value,Nat.le_of_not_lt stale⟩
      rw [if_neg stale]
      cases new : remember nonceCacheMax s.web.seenNonces r.nonce with
      | none => exact .refused
      | some seenNonces =>
        dsimp only
        cases object : x.loads r.body with
        | none => exact .passed verified (timely false) new
        | some json =>
          cases json with
          | object fields => exact .served verified (timely true) new object
          | null | number | string | array => exact .passed verified (timely false) new
  · rw [Bool.not_eq_true] at verified
    rw [verified,Bool.not_false,if_pos rfl]
    exact .refused

/-- Where what the server acts on comes from: a POST, or an answer of its own, which names nothing
done or refused. -/
def Genuine (x : Outside) (s : Link) (r : Request) : Prop :=
  (∃ p ∈ s.posted, r.body = p.text x ∧ r.ts ++ r.nonce = decimal p.ts ++ p.nonce) ∨
    ∃ a ∈ s.answers, r.body = answerText x a.chosen ∧ r.ts ++ r.nonce = a.nonce

structure Inv (x : Outside) (s : Link) : Prop where
  objects : ∀ p ∈ s.posted, ∃ fields, p.json = .object fields
  waits : ∀ p, s.waiting = some p → p ∈ s.posted
  handled : ∀ nonce ∈ s.handling, ∀ b ∈ nonce, b ∈ words
  nonces : ∀ a ∈ s.answers, ∀ b ∈ a.nonce, b ∈ words
  genuine : ∀ q ∈ s.passed, q.served = true → Genuine x s q.request

theorem textBraced (doc : Documented x) {s : Link} (inv : Inv x s) {p : Post} (there : p ∈ s.posted) : Braced (p.text x) := by
  obtain ⟨fields,object⟩ := inv.objects p there
  rw [Post.text,object]
  exact printBraced doc.bare fields

theorem signedParts (doc : Documented x) {s : Link} (inv : Inv x s) {message : Bytes} (signed : message ∈ s.signed x) :
    ∃ head text, message = head ++ text ∧ (∀ b ∈ head, b ∈ words) ∧ Braced text ∧
      ((∃ p ∈ s.posted, head = decimal p.ts ++ p.nonce ∧ text = p.text x) ∨
        ∃ a ∈ s.answers, head = a.nonce ∧ text = answerText x a.chosen) := by
  rcases List.mem_append.mp signed with there | there
  · obtain ⟨p,posted,rfl⟩ := List.mem_map.mp there
    refine ⟨_,_,rfl,?_,textBraced doc inv posted,.inl ⟨p,posted,rfl,rfl⟩⟩
    intro b head
    rcases List.mem_append.mp head with ts | nonce
    · exact decimalWords _ b ts
    · exact nonceWords p b nonce
  · obtain ⟨a,answered,rfl⟩ := List.mem_map.mp there
    exact ⟨_,_,rfl,inv.nonces a answered,doc.dumped _,.inr ⟨a,answered,rfl,rfl⟩⟩

theorem wholeNonzero {head text : Bytes} (words_ : ∀ b ∈ head, b ∈ words) (braced : Braced text) : 0 ∉ head ++ text := by
  intro there
  rcases List.mem_append.mp there with first | second
  · exact (wordForeign (words_ 0 first)).2.2 rfl
  · exact scanNonzero (bracedScan braced) second

theorem servedGenuine (doc : Documented x) {s : Link} (inv : Inv x s) {r : Request} {fields : List (Bytes × Json)}
    (signed : r.message ∈ s.signed x)
    (object : x.loads r.body = some (.object fields)) : Genuine x s r ∧ ∀ b ∈ r.nonce, b ∈ words := by
  obtain ⟨head,text,same,words_,braced,origin⟩ := signedParts doc inv signed
  have nonzero : 0 ∉ r.body := by
    intro there
    refine wholeNonzero words_ braced ?_
    rw [← same]
    exact List.mem_append_right _ there
  obtain ⟨body,front⟩ := framing braced words_ same (doc.loaded _ _ nonzero object)
  refine ⟨?_,fun b there => words_ b (by rw [← front]; exact List.mem_append_right _ there)⟩
  rcases origin with ⟨p,posted,rfl,rfl⟩ | ⟨a,answered,rfl,rfl⟩
  · exact .inl ⟨p,posted,body,front⟩
  · exact .inr ⟨a,answered,body,front⟩

theorem Genuine.mono {s s' : Link} {r : Request} (posted : s.posted ⊆ s'.posted) (answers : s.answers ⊆ s'.answers)
    (genuine : Genuine x s r) : Genuine x s' r := by
  rcases genuine with ⟨p,there,same⟩ | ⟨a,there,same⟩
  · exact .inl ⟨p,posted there,same⟩
  · exact .inr ⟨a,answers there,same⟩

theorem Inv.keep {s s' : Link} (inv : Inv x s) (posted : s'.posted = s.posted) (handling : s'.handling = s.handling)
    (answers : s'.answers = s.answers)
    (passed : ∀ q ∈ s'.passed, q.served = true → q ∈ s.passed) (waiting : ∀ p, s'.waiting = some p → s.waiting = some p) :
    Inv x s' where
  objects p there := inv.objects p (posted ▸ there)
  waits p waits := posted ▸ inv.waits p (waiting p waits)
  handled nonce there := inv.handled nonce (handling ▸ there)
  nonces a there := inv.nonces a (answers ▸ there)
  genuine q there acted := (inv.genuine q (passed q there acted) acted).mono (posted ▸ List.Subset.refl _)
    (answers ▸ List.Subset.refl _)

theorem postStep {s : Link} {m : Moment} {ts : Int} {random : UInt32 × UInt32} (inv : Inv x s) :
    Inv x (step x o s (.post m ts random)) := by
  rw [step]
  split
  · exact inv
  split
  · exact inv
  · rename_i json built
    have object : ∃ fields, json = .object fields := by
      rw [buildBody] at built
      split at built
      · cases built
        exact ⟨_,rfl⟩
      · cases built
    refine ⟨?_,?_,inv.handled,inv.nonces,?_⟩
    · intro p there
      rcases List.mem_append.mp there with there | new
      · exact inv.objects p there
      · cases List.mem_singleton.mp new
        exact object
    · intro p waits
      cases waits
      exact List.mem_append_right _ List.mem_cons_self
    · intro q there acted
      exact (inv.genuine q there acted).mono (List.subset_append_left _ _) (List.Subset.refl _)

theorem requestStep (doc : Documented x) {s : Link} {r : Request} (inv : Inv x s)
    (unforged : verifySignature x r → r.message ∈ s.signed x) : Inv x (requested x s r) := by
  have made : Requested x s r (requested x s r) := requests s r
  generalize requested x s r = s' at made
  cases made with
  | refused => exact inv
  | passed =>
    refine inv.keep rfl rfl rfl ?_ fun p waits => waits
    intro q there acted
    rcases List.mem_append.mp there with there | new
    · exact there
    · cases List.mem_singleton.mp new
      cases acted
  | served verified _ _ object =>
    obtain ⟨genuine,nonce⟩ := servedGenuine doc inv (unforged verified) object
    refine ⟨inv.objects,inv.waits,?_,inv.nonces,?_⟩
    · intro other there
      rcases List.mem_append.mp there with there | new
      · exact inv.handled other there
      · cases List.mem_singleton.mp new
        exact nonce
    · intro q there acted
      refine Genuine.mono (List.Subset.refl _) (List.Subset.refl _) ?_ (s := s)
      rcases List.mem_append.mp there with there | new
      · exact inv.genuine q there acted
      · cases List.mem_singleton.mp new
        exact genuine

/-- The second turn of the server leaves all but its queue and its answers. -/
structure TookPending (s s' : Link) : Prop where
  seen : s'.web.seenNonces = s.web.seenNonces
  posted : s'.posted = s.posted
  waiting : s'.waiting = s.waiting
  passed : s'.passed = s.passed
  log : s'.log = s.log
  now : s'.now = s.now
  handling : s'.handling ⊆ s.handling
  answers : s.answers ⊆ s'.answers
  signed : ∀ a ∈ s'.answers, a ∈ s.answers ∨ a.nonce ∈ s.handling

theorem takes (s : Link) (i : Nat) : TookPending s (tookPending x o s i) := by
  rw [tookPending]
  cases at_ : s.handling[i]? with
  | none => exact ⟨rfl,rfl,rfl,rfl,rfl,rfl,List.Subset.refl _,List.Subset.refl _,fun a there => .inl there⟩
  | some nonce =>
    refine ⟨rfl,rfl,rfl,rfl,rfl,rfl,fun n there => List.mem_of_mem_eraseIdx there,List.subset_append_left _ _,
      fun a there => ?_⟩
    rcases List.mem_append.mp there with old | new
    · exact .inl old
    · rw [List.mem_singleton.mp new]
      exact .inr (List.mem_of_getElem? at_)

theorem Inv.take {s s' : Link} (inv : Inv x s) (took : TookPending s s') : Inv x s' where
  objects p there := inv.objects p (took.posted ▸ there)
  waits p waits := took.posted ▸ inv.waits p (took.waiting ▸ waits)
  handled nonce there := inv.handled nonce (took.handling there)
  nonces a there := (took.signed a there).elim (inv.nonces a) fun handled => inv.handled a.nonce handled
  genuine q there acted :=
    (inv.genuine q (took.passed ▸ there) acted).mono (took.posted ▸ List.Subset.refl _) took.answers

theorem settledKeeps (s : Link) (perform : Post → Option Answer) :
    (settled s perform).posted = s.posted ∧ (settled s perform).handling = s.handling ∧
      (settled s perform).answers = s.answers ∧
      (settled s perform).passed = s.passed ∧ ∀ p, (settled s perform).waiting = some p → s.waiting = some p := by
  rw [settled]
  cases waiting : s.waiting with
  | none => exact ⟨rfl,rfl,rfl,rfl,fun p waits => by rw [waiting] at waits; exact waits⟩
  | some p => exact ⟨rfl,rfl,rfl,rfl,fun p waits => by cases waits⟩

theorem invStep (doc : Documented x) {s : Link} {a : Act} (inv : Inv x s) (unforged : Unforged x s a) :
    Inv x (step x o s a) := by
  have settles (perform : Post → Option Answer) : Inv x (settled s perform) := by
    obtain ⟨posted,handling,answers,passed,waiting⟩ := settledKeeps s perform
    exact inv.keep posted handling answers (fun q there _ => passed ▸ there) waiting
  cases a with
  | tick | enqueue | observe => exact inv.keep rfl rfl rfl (fun q there _ => there) fun p waits => waits
  | post m ts random => exact postStep inv
  | request r => exact requestStep doc inv unforged
  | take i => exact inv.take (takes s i)
  | answer a => exact settles fun p => some (a.answer x p)
  | fail => exact settles fun _ => none

theorem reachInv (doc : Documented x) {s : Link} (reach : Reach x o s) : Inv x s := by
  induction reach with
  | boot =>
    exact ⟨fun p there => absurd there List.not_mem_nil,fun p waits => (by cases waits),
      fun n there => absurd there List.not_mem_nil,fun a there => absurd there List.not_mem_nil,fun q there =>
        absurd there List.not_mem_nil⟩
  | step before unforged ih => exact invStep doc ih unforged

theorem postSteps {s : Link} {m : Moment} {json : Json} (idle : s.waiting = none)
    (built : buildBody x.fits s.device m = some json) (ts : Int) (random : UInt32 × UInt32) :
    step x o s (.post m ts random) =
      { s with posted := s.posted ++ [⟨ts,random,json⟩], waiting := some ⟨ts,random,json⟩ } := by
  rw [step,idle,built]
  rfl

theorem postVerified (digest : ∀ m, lower (x.mac m) = x.mac m) (p : Post) : verifySignature x (p.request x) = true := by
  have sig : (p.request x).sig = x.mac (p.request x).message := rfl
  rw [verifySignature,sig,digest]
  exact decide_eq_true rfl

/-! One command from the terminal to the device, with the widest body of telemetry. -/

def litSettings : Settings := ⟨8,600⟩
def litMoment : Moment := ⟨1700000000,ascii "0.8.12",0⟩
def litDevice : Backend :=
  { Backend.boot with
    slots := ⟨some ⟨0,HttpBackend.powerWorst⟩,some ⟨0,HttpBackend.hostWorst⟩,some ⟨0,HttpBackend.netWorst⟩⟩ }
def litPost : Post := ⟨1700000000,(0x01234567,0x89abcdef),.object (bodyFields litDevice litMoment)⟩
def litText : Bytes := print decimal litPost.json
def litMessage : Bytes := decimal litPost.ts ++ litPost.nonce ++ litText
def litBeep : Queued := ⟨HttpServer.commandId 1,ascii "ui.beep",.object [],1700000000⟩
def litAnswer : Bytes :=
  ascii "\x7b\"commands\": [\x7b\"id\": \"c-0001\", \"cmd\": \"ui.beep\", \"args\": \x7b\x7d\x7d]\x7d"
def litRequestMac : Bytes := ascii "8957765f7c94eae3b1e203098b9e3012aedf758f8490bc780f72a7fd3337b869"
def litAnswerMac : Bytes := ascii "3d1c3fd314414c701c36629ac6160debd21dbe7c43c4751026340f5c637eb8b8"

def litOutside : Outside where
  mac m :=
    if m = litMessage then litRequestMac
    else if m = litPost.nonce ++ litAnswer then litAnswerMac
    else List.replicate 64 0x30
  readInt t := if t = decimal 1700000000 then some 1700000000 else none
  loads t := if t = litText then some litPost.json else none
  dumps j := if print decimal j = print decimal (responseBody [litBeep]) then litAnswer else print decimal j
  number := decimal
  fits j := decide (JsonText.size decimal j < HttpBackend.httpBodyMax)
  parse t := if t = litAnswer then some (responseBody [litBeep]) else none

theorem decimalBare : Bare decimal := by
  intro n b there bracket
  exact (wordPlain (decimalWords n b there)).1 bracket

theorem bracedObject {t : Bytes} (braced : Braced t) : ObjectText t :=
  ⟨by obtain ⟨inner,rfl,-⟩ := braced; exact ⟨[],_,rfl,fun b none_ => absurd none_ List.not_mem_nil⟩,bracedScan braced⟩

theorem litDocumented : Documented litOutside where
  bare := decimalBare
  dumped fields := by
    simp only [litOutside]
    split
    · exact ⟨litAnswer.dropLast.drop 1,by decide +kernel,by decide +kernel⟩
    · exact printBraced decimalBare fields
  loaded t fields _ read := by
    simp only [litOutside] at read
    split at read
    · rename_i same
      rw [same]
      exact bracedObject (printBraced decimalBare _)
    · cases read
  parsed t fields read := by
    simp only [litOutside] at read
    split at read
    · rename_i same
      rw [same]
      decide +kernel
    · cases read

theorem litTexts : (litPost.text litOutside) = litText := rfl

theorem litTextPlain : (nonceCacheMax ≤ litText.length ∧ litText.length < HttpBackend.httpBodyMax) ∧
    ∀ b ∈ litText, Visible b := by
  have all : (fun t : Bytes => decide (nonceCacheMax ≤ t.length ∧ t.length < HttpBackend.httpBodyMax) &&
      t.all fun b => decide (Visible b)) litText = true := by decide +kernel
  obtain ⟨sizes,visible⟩ := Bool.and_eq_true_iff.mp all
  exact ⟨of_decide_eq_true sizes,fun b there => of_decide_eq_true (List.all_eq_true.mp visible b there)⟩

theorem litDigest (m : Bytes) : lower (litOutside.mac m) = litOutside.mac m := by
  simp only [litOutside]
  split
  · decide +kernel
  split
  · decide +kernel
  · decide +kernel

/-- Nothing that came over the network. -/
def Act.own : Act → Bool
  | .request _ | .answer _ => false
  | _ => true

theorem ownReach {acts : List Act} (own : ∀ a ∈ acts, a.own = true) {s : Link} (reach : Reach x o s) :
    Reach x o (acts.foldl (step x o) s) := by
  induction acts generalizing s with
  | nil => exact reach
  | cons a acts ih =>
    have unforged : Unforged x s a := by
      have here := own a List.mem_cons_self
      cases a with
      | request | answer => cases here
      | _ => trivial
    exact ih (fun a there => own a (List.mem_cons_of_mem _ there)) (.step reach unforged)

def litActs : List Act :=
  [.tick 1700000000,.enqueue (ascii "ui.beep") (.object []),
    .observe 0 (HttpBackend.telemetryFrame HttpBackend.wupsClassPower HttpBackend.wupsOpPwrStatus HttpBackend.powerWorst),
    .observe 0 (HttpBackend.telemetryFrame HttpBackend.wupsClassHost HttpBackend.wupsOpHostStatus HttpBackend.hostWorst),
    .observe 0 (HttpBackend.telemetryFrame WupsProtocol.wupsClassNet HttpBackend.wupsOpNetStatus HttpBackend.netWorst)]

def litReady : Link := { Link.boot with web := ⟨⟨[litBeep],2⟩,[]⟩, device := litDevice, now := 1700000000 }
def litPosted : Link := { litReady with posted := [litPost], waiting := some litPost }
def litServed : Link := requested litOutside litPosted (litPost.request litOutside)

theorem litReadyReach : Reach litOutside litSettings litReady := by
  have ready : litActs.foldl (step litOutside litSettings) .boot = litReady := by rfl
  rw [← ready]
  exact ownReach (by decide) .boot

theorem litPostedReach : Reach litOutside litSettings litPosted := by
  have fits : litOutside.fits (.object (bodyFields litDevice litMoment)) = true := by
    simp only [litOutside]
    exact decide_eq_true litTextPlain.1.2
  have built : buildBody litOutside.fits litDevice litMoment = some litPost.json := by
    rw [buildBody]
    exact if_pos fits
  have posts : step litOutside litSettings litReady (.post litMoment 1700000000 (0x01234567,0x89abcdef)) = litPosted :=
    postSteps (s := litReady) rfl built 1700000000 (0x01234567,0x89abcdef)
  rw [← posts]
  exact litReadyReach.step trivial

theorem litUnforged (r : Request) (same : r.message = litMessage) : Unforged litOutside litPosted (.request r) := by
  intro _
  rw [same]
  exact List.mem_append_left _ List.mem_cons_self

theorem litRequestMessage : (litPost.request litOutside).message = litMessage := by
  simp only [Request.message,Post.request,Post.text,litMessage,litText,litOutside]

theorem litServedReach : Reach litOutside litSettings litServed :=
  Reach.step (a := .request (litPost.request litOutside)) litPostedReach (litUnforged _ litRequestMessage)

theorem litNear : ((litPosted.now : Int)-1700000000).natAbs ≤ tsSkewToleranceS := by decide

theorem litValue : litOutside.readInt (decimal litPost.ts) = some 1700000000 := by
  have ts : litPost.ts = 1700000000 := rfl
  rw [ts]
  simp only [litOutside,if_true]

theorem litRead : litOutside.loads (litPost.text litOutside) = some (.object (bodyFields litDevice litMoment)) := by
  rw [litTexts]
  simp only [litOutside,if_true]
  rfl

theorem litLong : nonceCacheMax ≤ (litPost.text litOutside).length := by
  rw [litTexts]
  exact litTextPlain.1.1

theorem litVisible : ∀ b ∈ (litPost.text litOutside).take nonceCacheMax, Visible b :=
  fun b there => litTextPlain.2 b (List.mem_of_mem_take there)

theorem litServes : litServed.passed = [⟨1700000000,litPost.request litOutside,true⟩] ∧
    litServed.posted = [litPost] ∧ litServed.now = 1700000000 ∧ litServed.waiting = some litPost ∧
    litServed.handling = [litPost.nonce] ∧ litServed.answers = [] ∧ litServed.web.state = ⟨[litBeep],2⟩ := by
  have taken : requested litOutside litPosted (litPost.request litOutside) =
      { litPosted with
        web := ⟨⟨[litBeep],2⟩,[litPost.nonce]⟩
        handling := [litPost.nonce]
        passed := [⟨1700000000,litPost.request litOutside,true⟩] } := by
    have verified : verifySignature litOutside (litPost.request litOutside) = true := postVerified litDigest litPost
    have ts : (litPost.request litOutside).ts = decimal litPost.ts := rfl
    have new : remember nonceCacheMax litPosted.web.seenNonces (litPost.request litOutside).nonce = some [litPost.nonce] := rfl
    have body : (litPost.request litOutside).body = litPost.text litOutside := rfl
    have acks : HttpServer.applyAcks (.object (bodyFields litDevice litMoment)) litPosted.web.state = ⟨[litBeep],2⟩ := rfl
    rw [requested,doPost,verified,Bool.not_true,if_neg Bool.false_ne_true,ts,litValue]
    dsimp only
    rw [if_neg (Nat.not_lt.mpr litNear),new,body,litRead]
    dsimp only
    rw [acks]
    rfl
  rw [litServed,taken]
  exact ⟨rfl,rfl,rfl,rfl,rfl,rfl,rfl⟩

def litTaken : Link := tookPending litOutside litSettings litServed 0

theorem litTakes : litTaken.answers = [⟨litPost.nonce,[litBeep]⟩] ∧ litTaken.waiting = some litPost := by
  obtain ⟨-,-,now,waiting,handling,answers,state⟩ := litServes
  have taken : HttpServer.takePending (fun j => (litOutside.dumps j).length) litSettings 1700000000 ⟨[litBeep],2⟩ =
      (⟨[litBeep],2⟩,[litBeep]) := by
    have trimmed : HttpServer.trim (fun j => (litOutside.dumps j).length) HttpServer.deviceResponseMaxBytes [litBeep] 1 =
        [litBeep] := if_neg (by decide +kernel)
    exact Prod.ext rfl trimmed
  have here : litServed.handling[0]? = some litPost.nonce := by rw [handling]; rfl
  rw [litTaken,tookPending,here]
  dsimp only
  rw [now,state,taken,answers]
  exact ⟨rfl,waiting⟩

theorem litTakenReach : Reach litOutside litSettings litTaken := Reach.step (a := .take 0) litServedReach trivial

/-- What the server acts on is the body of a POST under the signature the device gave it, or an
answer of its own. -/
theorem actsOnPosted (doc : Documented x) {s : Link} (reach : Reach x o s) :
    ∀ q ∈ s.passed, q.served = true →
      (∃ p ∈ s.posted, q.request.body = p.text x ∧ q.request.ts ++ q.request.nonce = decimal p.ts ++ p.nonce) ∨
        ∃ a ∈ s.answers, q.request.body = answerText x a.chosen ∧ q.request.ts ++ q.request.nonce = a.nonce :=
  (reachInv doc reach).genuine

theorem litActsOn : litServed.passed.length = 1 ∧ ∀ q ∈ litServed.passed, q.served = true →
    (∃ p ∈ litServed.posted, q.request.body = p.text litOutside ∧ q.request.ts ++ q.request.nonce = decimal p.ts ++ p.nonce) ∨
      ∃ a ∈ litServed.answers, q.request.body = answerText litOutside a.chosen ∧ q.request.ts ++ q.request.nonce = a.nonce :=
  ⟨by rw [litServes.1]; rfl,actsOnPosted litDocumented litServedReach⟩

structure Memory (x : Outside) (s : Link) : Prop where
  recent : s.web.seenNonces = (s.passed.map (·.request.nonce)).rtake nonceCacheMax
  fresh : ∀ l q c, s.passed = l ++ [q] ++ c → q.request.nonce ∉ (l.map (·.request.nonce)).rtake nonceCacheMax
  timely : ∀ q ∈ s.passed, Timely x q
  past : ∀ q ∈ s.passed, q.at_ ≤ s.now
  ordered : s.passed.Pairwise (·.at_ ≤ ·.at_)

theorem Memory.keep {s s' : Link} (memory : Memory x s) (seen : s'.web.seenNonces = s.web.seenNonces)
    (passed : s'.passed = s.passed) (now : s.now ≤ s'.now) : Memory x s' where
  recent := by rw [seen,passed,memory.recent]
  fresh l q c same := memory.fresh l q c (passed ▸ same)
  timely q there := memory.timely q (passed ▸ there)
  past q there := Nat.le_trans (memory.past q (passed ▸ there)) now
  ordered := passed ▸ memory.ordered

theorem Memory.add {s s' : Link} (memory : Memory x s) {q : Passed} (at_ : q.at_ = s.now) (timely : Timely x q)
    (new : remember nonceCacheMax s.web.seenNonces q.request.nonce = some s'.web.seenNonces)
    (passed : s'.passed = s.passed ++ [q]) (now : s'.now = s.now) : Memory x s' := by
  rw [memory.recent] at new
  obtain ⟨recent,unseen⟩ := rememberRecent new
  refine ⟨?_,?_,?_,?_,?_⟩
  · rw [recent,passed,List.map_append]
    rfl
  · intro l q' c same
    rw [passed] at same
    rcases List.eq_nil_or_concat c with rfl | ⟨c,last,rfl⟩
    · rw [List.append_nil] at same
      obtain ⟨rfl,one⟩ := List.append_inj' same rfl
      cases one
      exact unseen
    · rw [List.concat_eq_append,← List.append_assoc] at same
      exact memory.fresh l q' c (List.append_inj' same rfl).1
  · intro q' there
    rw [passed] at there
    rcases List.mem_append.mp there with there | last
    · exact memory.timely q' there
    · rw [List.mem_singleton.mp last]
      exact timely
  · intro q' there
    rw [passed] at there
    rw [now]
    rcases List.mem_append.mp there with there | last
    · exact memory.past q' there
    · rw [List.mem_singleton.mp last]
      exact Nat.le_of_eq at_
  · rw [passed,List.pairwise_append]
    refine ⟨memory.ordered,List.pairwise_singleton _ _,fun q' there last only => ?_⟩
    rw [List.mem_singleton.mp only,at_]
    exact memory.past q' there

theorem memoryStep {s : Link} (memory : Memory x s) (a : Act) : Memory x (step x o s a) := by
  have settles (perform : Post → Option Answer) : Memory x (settled s perform) := by
    refine memory.keep ?_ (settledKeeps s perform).2.2.2.1 ?_
    all_goals
      rw [settled]
      cases s.waiting <;> rfl
  cases a with
  | tick later => exact memory.keep rfl rfl (Nat.le_add_right _ _)
  | enqueue | observe => exact memory.keep rfl rfl (Nat.le_refl _)
  | post m ts random =>
    rw [step]
    split
    · exact memory
    split
    · exact memory
    · exact memory.keep rfl rfl (Nat.le_refl _)
  | request r =>
    have made : Requested x s r (requested x s r) := requests s r
    show Memory x (requested x s r)
    generalize requested x s r = s' at made
    cases made with
    | refused => exact memory
    | passed _ timely new => exact memory.add rfl timely new rfl rfl
    | served _ timely new _ => exact memory.add rfl timely new rfl rfl
  | take i =>
    have took : TookPending s (tookPending x o s i) := takes s i
    exact memory.keep took.seen took.passed (Nat.le_of_eq took.now.symm)
  | answer a => exact settles fun p => some (a.answer x p)
  | fail => exact settles fun _ => none

theorem reachMemory {s : Link} (reach : Reach x o s) : Memory x s := by
  induction reach with
  | boot => exact ⟨rfl,fun l q c same => by simp [Link.boot] at same,fun q there => absurd there List.not_mem_nil,
      fun q there => absurd there List.not_mem_nil,List.Pairwise.nil⟩
  | step before unforged ih => exact memoryStep ih _

/-- The same nonce passes again only behind 512 others, and with the same timestamp only within ten
minutes. -/
theorem replayNeedsFlood {s : Link} (reach : Reach x o s) {a b c : List Passed} {q q' : Passed}
    (passed : s.passed = a ++ [q] ++ b ++ [q'] ++ c) (again : q'.request.nonce = q.request.nonce) :
    nonceCacheMax ≤ b.length ∧ (q'.request.ts = q.request.ts → q.at_ ≤ q'.at_ ∧ q'.at_ ≤ q.at_+2*tsSkewToleranceS) := by
  have memory := reachMemory reach
  constructor
  · have forgotten := memory.fresh (a ++ [q] ++ b) q' c passed
    rw [List.map_append,List.map_append,List.map_singleton,again] at forgotten
    have behind := forgottenAfter forgotten
    rwa [List.length_map] at behind
  · intro same
    have first : q ∈ s.passed := by simp [passed]
    have second : q' ∈ s.passed := by simp [passed]
    obtain ⟨ts,value,near⟩ := memory.timely q first
    obtain ⟨ts',value',near'⟩ := memory.timely q' second
    rw [same,value] at value'
    cases value'
    have ordered : q.at_ ≤ q'.at_ := by
      have all := memory.ordered
      rw [passed,List.append_assoc (a ++ [q]),List.append_assoc (a ++ [q]),List.pairwise_append] at all
      exact all.2.2 q (by simp) q' (by simp)
    simp only [tsSkewToleranceS] at near near' ⊢
    omega

/-- The POST with the first `k` bytes of its body moved to the nonce. -/
def Post.cut (x : Outside) (p : Post) (k : Nat) : Request :=
  { p.request x with nonce := p.nonce ++ (p.text x).take k, body := (p.text x).drop k }

theorem cutMessage (p : Post) (k : Nat) : (p.cut x k).message = (p.request x).message := by
  simp [Request.message,Post.cut,Post.request]

theorem cutNone (p : Post) : p.cut x 0 = p.request x := by
  simp [Post.cut,Post.request]

/-- `s'` is `s` after requests, with the memory of nonces at `seen`. -/
structure After (x : Outside) (o : Settings) (s : Link) (seen : List Bytes) (s' : Link) : Prop where
  reach : Reach x o s'
  seenNonces : s'.web.seenNonces = seen
  posted : s'.posted = s.posted
  now : s'.now = s.now
  passed : s.passed <+: s'.passed

section
variable (digest : ∀ m, lower (x.mac m) = x.mac m) {p : Post} {ts : Int} (value : x.readInt (decimal p.ts) = some ts)
include digest value

theorem cutTaken {s : Link} (reach : Reach x o s) (posted : p ∈ s.posted)
    (near : ((s.now : Int)-ts).natAbs ≤ tsSkewToleranceS) {k : Nat} {seen : List Bytes}
    (new : remember nonceCacheMax s.web.seenNonces (p.cut x k).nonce = some seen) :
    After x o s seen (requested x s (p.cut x k)) ∧
      (∀ fields, x.loads ((p.text x).drop k) = some (.object fields) →
        (requested x s (p.cut x k)).passed = s.passed ++ [⟨s.now,p.cut x k,true⟩]) := by
  have verified : verifySignature x (p.cut x k) = true := by
    have sig : (p.cut x k).sig = x.mac (p.request x).message := rfl
    rw [verifySignature,cutMessage,sig,digest]
    exact decide_eq_true rfl
  have unforged : Unforged x s (.request (p.cut x k)) := by
    intro _
    rw [cutMessage]
    exact List.mem_append_left _ (List.mem_map_of_mem posted)
  have reached : Reach x o (requested x s (p.cut x k)) := Reach.step reach unforged
  have timestamp : (p.cut x k).ts = decimal p.ts := rfl
  have body : (p.cut x k).body = (p.text x).drop k := rfl
  have fresh : ¬tsSkewToleranceS < ((s.now : Int)-ts).natAbs := Nat.not_lt.mpr near
  rw [requested,doPost,verified,Bool.not_true,if_neg Bool.false_ne_true,timestamp,value] at reached ⊢
  dsimp only at reached ⊢
  rw [if_neg fresh,new,body] at reached ⊢
  dsimp only at reached ⊢
  cases read : x.loads ((p.text x).drop k) with
  | none =>
    rw [read] at reached
    exact ⟨⟨reached,rfl,rfl,rfl,List.prefix_append _ _⟩,fun fields object => by cases object⟩
  | some json =>
    rw [read] at reached
    cases json with
    | object fields => exact ⟨⟨reached,rfl,rfl,rfl,List.prefix_append _ _⟩,fun _ _ => rfl⟩
    | null | number | string | array =>
      exact ⟨⟨reached,rfl,rfl,rfl,List.prefix_append _ _⟩,fun fields object => by cases object⟩

theorem cutsTaken {s : Link} (reach : Reach x o s) (posted : p ∈ s.posted)
    (near : ((s.now : Int)-ts).natAbs ≤ tsSkewToleranceS) {nonces last : List Bytes}
    (takes : Takes nonceCacheMax s.web.seenNonces nonces last) (cuts : ∀ n ∈ nonces, ∃ k ≤ nonceCacheMax, (p.cut x k).nonce = n) :
    ∃ ks : List Nat, (∀ k ∈ ks, k ≤ nonceCacheMax) ∧ After x o s last ((ks.map (p.cut x)).foldl (requested x) s) := by
  generalize same : s.web.seenNonces = seen at takes
  induction takes generalizing s with
  | nil seen => exact ⟨[],fun k there => absurd there List.not_mem_nil,⟨reach,same,rfl,rfl,List.prefix_refl _⟩⟩
  | @cons seen next last nonce nonces first rest ih =>
    obtain ⟨k,few,cut⟩ := cuts nonce List.mem_cons_self
    rw [← same,← cut] at first
    obtain ⟨after,-⟩ := cutTaken digest value reach posted near first
    obtain ⟨ks,fewer,final⟩ := ih after.reach (after.posted ▸ posted) (after.now ▸ near)
      (fun n there => cuts n (List.mem_cons_of_mem _ there)) after.seenNonces
    refine ⟨k :: ks,List.forall_mem_cons.mpr ⟨few,fewer⟩,?_⟩
    exact ⟨final.reach,final.seenNonces,final.posted.trans after.posted,final.now.trans after.now,
      after.passed.trans final.passed⟩

/-- The server forgets the nonce of a POST for copies of it, whatever it remembers. -/
theorem cutsForget {s : Link} (reach : Reach x o s) (posted : p ∈ s.posted)
    (near : ((s.now : Int)-ts).natAbs ≤ tsSkewToleranceS) (long : nonceCacheMax ≤ (p.text x).length) :
    ∃ (ks : List Nat) (last : List Bytes), (∀ k ∈ ks, k ≤ nonceCacheMax) ∧ p.nonce ∉ last ∧
      After x o s last ((ks.map (p.cut x)).foldl (requested x) s) := by
  let others := (List.range nonceCacheMax).map fun i => p.nonce ++ (p.text x).take (i+1)
  have lengths (i : Nat) (below : i < nonceCacheMax) : (p.nonce ++ (p.text x).take (i+1)).length = 17+i := by
    rw [List.length_append,nonceLength,List.length_take]
    omega
  have apart : p.nonce ∉ others := by
    intro there
    obtain ⟨i,below,same⟩ := List.mem_map.mp there
    have long := congrArg List.length same
    rw [lengths i (List.mem_range.mp below),nonceLength] at long
    omega
  have distinct : others.Nodup := by
    refine List.Nodup.map_on (fun i below j below' same => ?_) List.nodup_range
    have long := congrArg List.length same
    rw [lengths i (List.mem_range.mp below),lengths j (List.mem_range.mp below')] at long
    omega
  have enough : nonceCacheMax ≤ others.length := by rw [List.length_map,List.length_range]
  have fits : s.web.seenNonces.length ≤ nonceCacheMax := by
    rw [(reachMemory reach).recent,List.rtake.eq_def,List.length_drop]
    omega
  obtain ⟨nonces,last,only,takes,gone,-⟩ := flushed apart distinct enough fits
  have cuts : ∀ n ∈ nonces, ∃ k ≤ nonceCacheMax, (p.cut x k).nonce = n := by
    intro n there
    obtain ⟨i,below,same⟩ := List.mem_map.mp (only n there)
    exact ⟨i+1,List.mem_range.mp below,same⟩
  obtain ⟨ks,few,after⟩ := cutsTaken digest value reach posted near takes cuts
  exact ⟨ks,last,few,gone,after⟩

theorem actsAgain {s : Link} (reach : Reach x o s) (posted : p ∈ s.posted)
    (near : ((s.now : Int)-ts).natAbs ≤ tsSkewToleranceS) {fields : List (Bytes × Json)}
    (object : x.loads (p.text x) = some (.object fields)) (gone : p.nonce ∉ s.web.seenNonces) :
    let s' := requested x s (p.cut x 0)
    Reach x o s' ∧ s'.now = s.now ∧ s'.passed = s.passed ++ [⟨s.now,p.request x,true⟩] := by
  have nonce : (p.cut x 0).nonce = p.nonce := by
    rw [cutNone]
    rfl
  obtain ⟨seen,new⟩ : ∃ seen, remember nonceCacheMax s.web.seenNonces (p.cut x 0).nonce = some seen := by
    rw [nonce,remember,if_neg gone]
    exact ⟨_,rfl⟩
  obtain ⟨after,acted⟩ := cutTaken digest value reach posted near new
  exact ⟨after.reach,after.now,by rw [acted fields object,cutNone]⟩

/-- Copies of one POST, cut elsewhere, make the server forget its nonce and act on it once more,
whatever it remembers. -/
theorem oneFloods {s : Link} (reach : Reach x o s) (posted : p ∈ s.posted)
    (near : ((s.now : Int)-ts).natAbs ≤ tsSkewToleranceS) {fields : List (Bytes × Json)}
    (object : x.loads (p.text x) = some (.object fields)) (long : nonceCacheMax ≤ (p.text x).length)
    (plain : ∀ b ∈ (p.text x).take nonceCacheMax, Visible b) :
    ∃ ks : List Nat, (∀ k ∈ ks, ∀ b ∈ (p.cut x k).nonce, Visible b) ∧
      let s' := (ks.map (p.cut x)).foldl (requested x) s
      Reach x o s' ∧ s'.now = s.now ∧ s'.passed.getLast? = some ⟨s.now,p.request x,true⟩ := by
  have visible {k : Nat} (few : k ≤ nonceCacheMax) : ∀ b ∈ (p.cut x k).nonce, Visible b := by
    intro b there
    rcases List.mem_append.mp there with nonce | moved
    · exact wordVisible (nonceWords p b nonce)
    · exact plain b (List.take_subset_take_left _ few moved)
  obtain ⟨ks,last,few,gone,after⟩ := cutsForget digest value reach posted near long
  obtain ⟨reached,now,acted⟩ := actsAgain digest value after.reach (after.posted ▸ posted) (after.now ▸ near) object
    (after.seenNonces ▸ gone)
  refine ⟨ks ++ [0],?_,?_⟩
  · intro k there
    rcases List.mem_append.mp there with there | zero
    · exact visible (few k there)
    · rw [List.mem_singleton.mp zero]
      exact visible (Nat.zero_le _)
  · dsimp only
    rw [List.map_append,List.foldl_append,List.map_singleton,List.foldl_cons,List.foldl_nil]
    exact ⟨reached,now.trans after.now,by rw [acted,List.getLast?_concat,after.now]⟩

end

theorem litReplayed : ∃ (s : Link) (a b c : List Passed) (q q' : Passed),
    s.passed = a ++ [q] ++ b ++ [q'] ++ c ∧ q'.request.nonce = q.request.nonce ∧ q.served = true ∧ q'.served = true ∧
      nonceCacheMax ≤ b.length ∧ (q'.request.ts = q.request.ts → q.at_ ≤ q'.at_ ∧ q'.at_ ≤ q.at_+2*tsSkewToleranceS) := by
  obtain ⟨once,posted,now,-⟩ := litServes
  have there : litPost ∈ litServed.posted := by
    rw [posted]
    exact List.mem_cons_self
  have near : ((litServed.now : Int)-1700000000).natAbs ≤ tsSkewToleranceS := by
    rw [now]
    exact litNear
  obtain ⟨ks,last,-,gone,after⟩ := cutsForget (p := litPost) litDigest litValue litServedReach there near litLong
  rw [← after.posted] at there
  rw [← after.now] at near
  rw [← after.seenNonces] at gone
  obtain ⟨reach,-,again⟩ := actsAgain (p := litPost) litDigest litValue after.reach there near litRead gone
  obtain ⟨between,more⟩ := after.passed
  rw [once] at more
  rw [← more,← List.nil_append [_],← List.append_nil (_ ++ [_])] at again
  exact ⟨_,[],between,[],_,_,again,rfl,rfl,rfl,replayNeedsFlood reach again rfl⟩

theorem litFloods : ∃ ks : List Nat, (∀ k ∈ ks, ∀ b ∈ (litPost.cut litOutside k).nonce, Visible b) ∧
    let s' := (ks.map (litPost.cut litOutside)).foldl (requested litOutside) litServed
    Reach litOutside litSettings s' ∧ s'.now = litServed.now ∧
      s'.passed.getLast? = some ⟨litServed.now,litPost.request litOutside,true⟩ := by
  obtain ⟨-,posted,now,-⟩ := litServes
  have there : litPost ∈ litServed.posted := by
    rw [posted]
    exact List.mem_cons_self
  have near : ((litServed.now : Int)-1700000000).natAbs ≤ tsSkewToleranceS := by
    rw [now]
    exact litNear
  exact oneFloods litDigest litValue litServedReach there near litRead litLong litVisible

/-- The commands the device finds in an answer. -/
def told (x : Outside) (chosen : List Queued) : List Json := (Reply.mk 0 (x.parse (answerText x chosen)) true).commands

/-- The id stands in an answer the server signed for one of the device's POSTs. -/
def Answered (x : Outside) (s : Link) (id : Bytes) : Prop :=
  ∃ p ∈ s.posted, ∃ a ∈ s.answers, a.nonce = p.nonce ∧ ∃ c ∈ told x a.chosen, idOf c = id

theorem handledIds {b : Backend} {c : Json} {id : Bytes} (there : id ∈ dispatchedIds (handleCommand b c).2) : idOf c = id := by
  have quiet (b : Backend) (id : Bytes) : dispatchedIds (ackAdd b id).2 = [] := by
    rw [ackAdd]
    split
    · rfl
    split
    · refine List.filterMap_eq_nil_iff.mpr fun e lost => ?_
      obtain ⟨_,-,rfl⟩ := List.mem_map.mp lost
      rfl
    · rfl
  have cases_ := handles b c
  generalize handleCommand b c = r at there cases_
  cases cases_ with
  | refused => cases there
  | again =>
    rw [quiet] at there
    cases there
  | first payload cmdSeq =>
    have parts : dispatchedIds (.dispatched (idOf c) payload ::
      (ackAdd (HttpBackend.execAdd { b with cmdSeq } (idOf c)) (idOf c)).2) =
        [idOf c] ++ dispatchedIds (ackAdd (HttpBackend.execAdd { b with cmdSeq } (idOf c)) (idOf c)).2 := rfl
    rw [parts,quiet,List.append_nil] at there
    exact (List.mem_singleton.mp there).symm

theorem commandsIds {b : Backend} {cs : List Json} {id : Bytes} (there : id ∈ dispatchedIds (handleCommands b cs).2) :
    ∃ c ∈ cs, idOf c = id := by
  induction cs generalizing b with
  | nil => cases there
  | cons c cs ih =>
    simp only [handleCommands,dispatchedAppend] at there
    rcases List.mem_append.mp there with first | rest
    · exact ⟨c,List.mem_cons_self,handledIds first⟩
    · obtain ⟨c',among,same⟩ := ih rest
      exact ⟨c',List.mem_cons_of_mem _ among,same⟩

theorem responseIds {b : Backend} {r : Reply} {id : Bytes} (there : id ∈ dispatchedIds (handleResponse b r).2) :
    r.signed = true ∧ ∃ c ∈ r.commands, idOf c = id := by
  rw [handleResponse] at there
  split at there
  · cases there
  split at there
  · cases there
  · rename_i signed
    obtain ⟨c,among,same⟩ := commandsIds there
    have listed := List.mem_of_mem_take among
    refine ⟨?_,c,listed,same⟩
    by_contra unsigned
    exact signed ⟨List.length_pos_of_mem listed,by simpa using unsigned⟩

theorem commandsObject {r : Reply} {c : Json} (among : c ∈ r.commands) : ∃ fields, r.root = some (.object fields) := by
  rw [Reply.commands] at among
  cases root : r.root with
  | none =>
    rw [root] at among
    cases among
  | some json =>
    cases json with
    | object fields => exact ⟨fields,rfl⟩
    | null | number | string | array =>
      rw [root] at among
      cases among

theorem settleIds {b : Backend} {body : Json} {a : Answer} {id : Bytes} (there : id ∈ dispatchedIds (settle b body (some a)).2) :
    a.reply.signed = true ∧ ∃ c ∈ a.reply.commands, idOf c = id := by
  rw [settle] at there
  split at there
  · cases there
  split at there
  · cases there
  · exact responseIds there

/-- An answer that verifies and names a command is the server's own, for this very POST. -/
theorem answerGenuine (doc : Documented x) {s : Link} (inv : Inv x s) {p : Post} {a : Response}
    (signed : p.nonce ++ a.body ∈ s.signed x) {fields : List (Bytes × Json)} (object : x.parse a.body = some (.object fields)) :
    ∃ c ∈ s.answers, c.nonce = p.nonce ∧ a.body = answerText x c.chosen := by
  obtain ⟨head,text,same,words_,braced,origin⟩ := signedParts doc inv signed
  have both : p.nonce = head ∧ a.body = text := by
    rcases List.append_eq_append_iff.mp same with ⟨more,left,right⟩ | ⟨more,left,right⟩
    · cases more with
      | nil => exact ⟨by rw [left,List.append_nil],right⟩
      | cons b more =>
        have word : b ∈ words := words_ b (by rw [left]; exact List.mem_append_right _ List.mem_cons_self)
        exact absurd word (doc.parsed _ _ object b (by rw [right]; rfl))
    · cases more with
      | nil => exact ⟨by rw [left,List.append_nil],right.symm⟩
      | cons b more =>
        have word : b ∈ words := nonceWords p b (by rw [left]; exact List.mem_append_right _ List.mem_cons_self)
        obtain ⟨inner,opens,-⟩ := braced
        rw [opens,List.cons_append,List.cons_append,List.cons.injEq] at right
        exact absurd right.1.symm (wordForeign word).1
  obtain ⟨nonce,body⟩ := both
  rcases origin with ⟨p',-,front,-⟩ | ⟨c,answered,front,text_⟩
  · have long := congrArg List.length (nonce.trans front)
    have some_ : 0 < (decimal p'.ts).length := by
      rw [decimal]
      split
      · exact Nat.succ_pos _
      · rw [JsonText.digits,List.length_map]
        exact Nat.length_toDigits_pos
    rw [List.length_append,nonceLength,nonceLength] at long
    omega
  · exact ⟨c,answered,(nonce.trans front).symm,body.trans text_⟩

theorem Answered.mono {s s' : Link} {id : Bytes} (posted : s.posted ⊆ s'.posted) (answers : s.answers ⊆ s'.answers)
    (answered : Answered x s id) : Answered x s' id := by
  obtain ⟨p,there,a,among,rest⟩ := answered
  exact ⟨p,posted there,a,answers among,rest⟩

theorem logStep (doc : Documented x) {s : Link} {a : Act} (inv : Inv x s) (unforged : Unforged x s a)
    (before : ∀ id ∈ dispatchedIds s.log, Answered x s id) :
    ∀ id ∈ dispatchedIds (step x o s a).log, Answered x (step x o s a) id := by
  cases a with
  | tick | enqueue | observe =>
    intro id there
    exact (before id there).mono (List.Subset.refl _) (List.Subset.refl _)
  | post m ts random =>
    rw [step]
    split
    · exact before
    split
    · exact before
    · intro id there
      exact (before id there).mono (List.subset_append_left _ _) (List.Subset.refl _)
  | request r =>
    have made : Requested x s r (requested x s r) := requests s r
    show ∀ id ∈ dispatchedIds (requested x s r).log, Answered x (requested x s r) id
    generalize requested x s r = s' at made
    cases made with
    | refused => exact before
    | passed =>
      intro id there
      exact (before id there).mono (List.Subset.refl _) (List.Subset.refl _)
    | served =>
      intro id there
      exact Answered.mono (s := s) (List.Subset.refl _) (List.Subset.refl _) (before id there)
  | take i =>
    have took : TookPending s (tookPending x o s i) := takes s i
    intro id there
    rw [step,took.log] at there
    exact (before id there).mono (took.posted ▸ List.Subset.refl _) took.answers
  | answer a =>
    show ∀ id ∈ dispatchedIds (settled s _).log, Answered x (settled s _) id
    rw [settled]
    cases waiting : s.waiting with
    | none => exact before
    | some p =>
      intro id there
      simp only [dispatchedAppend] at there
      rcases List.mem_append.mp there with old | new
      · exact before id old
      · obtain ⟨signed,c,among,same⟩ := settleIds new
        obtain ⟨fields,object⟩ : ∃ fields, x.parse a.body = some (.object fields) := commandsObject among
        obtain ⟨c',answered,nonce,body⟩ := answerGenuine doc inv (unforged p waiting signed) object
        refine ⟨p,inv.waits p waiting,c',answered,nonce,c,?_,same⟩
        rw [told,← body]
        exact among
  | fail =>
    show ∀ id ∈ dispatchedIds (settled s _).log, Answered x (settled s _) id
    rw [settled]
    cases waiting : s.waiting with
    | none => exact before
    | some p =>
      intro id there
      simp only [dispatchedAppend] at there
      rcases List.mem_append.mp there with old | new
      · exact before id old
      · cases new

/-- Every command the device ever passed on stands in an answer the server signed for one of the
device's own POSTs. -/
theorem dispatchesAnswered (doc : Documented x) {s : Link} (reach : Reach x o s) :
    ∀ id ∈ dispatchedIds s.log, ∃ p ∈ s.posted, ∃ a ∈ s.answers, a.nonce = p.nonce ∧ ∃ c ∈ told x a.chosen, idOf c = id := by
  induction reach with
  | boot => exact fun id there => absurd there List.not_mem_nil
  | step before unforged ih => exact logStep doc (reachInv doc before) unforged ih

def litRun : Link := settled litTaken fun p => some (Response.answer litOutside p ⟨200,litAnswer,litAnswerMac⟩)

theorem litRunReach : Reach litOutside litSettings litRun := by
  obtain ⟨answers,waiting⟩ := litTakes
  refine Reach.step (a := .answer ⟨200,litAnswer,litAnswerMac⟩) litTakenReach fun p waits _ => ?_
  cases waiting.symm.trans waits
  refine List.mem_append_right _ (List.mem_map.mpr ⟨⟨litPost.nonce,[litBeep]⟩,answers ▸ List.mem_cons_self,?_⟩)
  simp only [answerText,litOutside,if_true]

theorem litDispatched : dispatchedIds litRun.log = [HttpServer.commandId 1] ∧
    ∀ id ∈ dispatchedIds litRun.log, ∃ p ∈ litRun.posted, ∃ a ∈ litRun.answers, a.nonce = p.nonce ∧
      ∃ c ∈ told litOutside a.chosen, idOf c = id :=
  ⟨by decide +kernel,dispatchesAnswered litDocumented litRunReach⟩

end Web3PiUps.HttpAuth
