import Corx.Base.Run
import Corx.Config
import Corx.Server.ResponseCap

/-!
# Bytes transferred

One counter of the process counts the bytes of all responses. The body of each goes to its client
through a `CountingBody` within a `LimitingBody`, and the connections poll their bodies in any
order, for as long as they live.

The count is taken on the upstream's side of the limit: the frame that takes a response over it is
counted, and not passed on. So the counter is what all clients have received, and for each response
that was cut off one frame more (`transferred_of_run`).
-/

namespace Corx

open Body (Frame Polled pollFrame pollEach afterPolls dataOf totalData)

variable {B E : Type}

/-- The body of a response, counted and then limited. -/
def responseBody (limits : LimitsConfig) (upstreamBody : B) : LimitingBody (CountingBody B) :=
  .new (.new upstreamBody "response") limits.maxResponseBodyBytes

/-- A response on its way: the body that came from the upstream, what has become of it, and the
data that the client has received. -/
structure Transfer (B : Type) where
  source : B
  body : LimitingBody (CountingBody B)
  received : List UInt8

namespace Transfer

/-- A response as `shape_response` hands it out. -/
def shaped (limits : LimitsConfig) (source : B) : Transfer B where
  source
  body := responseBody limits source
  received := []

/-- What the response has added to the counter. -/
def counted (t : Transfer B) : ℕ :=
  t.body.inner.counted

/-- The response was cut off at its limit. -/
def isCut (t : Transfer B) : Bool :=
  overBudget t.body.maxBytes t.body.seen

/-- The connection polls the body, and passes on what it gets. -/
def poll [Body B HeaderMap E] (t : Transfer B) : Transfer B :=
  { t with
    body := (pollFrame t.body).2
    received := t.received ++ (pollFrame t.body).1.bytes }

end Transfer

/-- The counter, and the responses. One whose connection is closed is not polled again. -/
structure Transfers (B : Type) where
  transferred : ℕ
  responses : List (Transfer B)

/-- A response is handed out, or polled. -/
inductive TransferEvent
  | shaped
  | polled

namespace Transfers

/-- Nothing has been transferred. -/
def init : Transfers B where
  transferred := 0
  responses := []

/-- The data that the clients have received. -/
def received (s : Transfers B) : ℕ :=
  (s.responses.map fun t => t.received.length).sum

/-- The number of responses that were cut off. -/
def cuts (s : Transfers B) : ℕ :=
  s.responses.countP Transfer.isCut

/-- One step of one response. -/
inductive Step [Body B HeaderMap E] (limits : LimitsConfig) :
    Transfers B → TransferEvent → Transfers B → Prop
  | shaped {s : Transfers B} (source : B) :
      Step limits s .shaped { s with responses := s.responses ++ [.shaped limits source] }
  -- the counter grows by what the poll has counted
  | polled {transferred : ℕ} {pre post : List (Transfer B)} (t : Transfer B) :
      Step limits { transferred, responses := pre ++ t :: post } .polled
        { transferred := transferred + (t.poll.counted - t.counted)
          responses := pre ++ t.poll :: post }

end Transfers

/-! ## One response -/

namespace Transfer

variable [Body B HeaderMap E] {t : Transfer B}

/-- The upstream's body as it was after some polls is counted and limited from there: as long as
the response is not cut off, all of their data has been counted and received; once it is, the data
of the last poll has been counted only. -/
structure Ok (limit : UInt64) (t : Transfer B) : Prop where
  maxBytes : t.body.maxBytes = limit
  seen : t.body.seen = min t.counted (UInt64.size - 1)
  sent : ∃ n, t.received = dataOf (pollEach n t.source) ∧
    (t.isCut = false → t.body.inner.inner = afterPolls n t.source ∧
      t.counted = totalData n t.source) ∧
    (t.isCut = true → totalData n t.source ≤ limit.toNat ∧
      t.counted = totalData (n + 1) t.source)

/-- A response is handed out like this. -/
theorem ok_shaped (limits : LimitsConfig) (source : B) :
    (shaped limits source).Ok limits.maxResponseBodyBytes where
  maxBytes := rfl
  seen := rfl
  sent := by
    have hcut : (shaped limits source).isCut = false := by simp [isCut, shaped, responseBody,
      LimitingBody.new, overBudget]
    exact ⟨0, rfl, fun _ => ⟨rfl, rfl⟩, fun h => by rw [hcut] at h; cases h⟩

/-- A poll of a counting body counts the data that it yields. -/
theorem counted_pollFrame (b : CountingBody B) :
    (pollFrame b).2.counted = b.counted + (pollFrame b.inner).1.bytes.length := by
  rcases hpoll : pollFrame b.inner with ⟨polled, inner⟩
  unfold pollFrame instBodyCountingBodyHeaderMap
  dsimp only
  rw [hpoll]
  cases polled with
  | frame frame => cases frame <;> rfl
  | pending | failed | finished => rfl

omit [Body B HeaderMap E] in
/-- What a poll yields goes to the client, unless it takes the response over its limit. -/
theorem passOn_spec (b : LimitingBody (CountingBody B)) (polled : Polled HeaderMap E)
    (inner : CountingBody B) (hseen : b.seen = min b.inner.counted (UInt64.size - 1))
    (hcounted : inner.counted = b.inner.counted + polled.bytes.length) :
    (b.passOn polled inner).2.maxBytes = b.maxBytes ∧ (b.passOn polled inner).2.inner = inner ∧
      (b.passOn polled inner).2.seen = min inner.counted (UInt64.size - 1) ∧
      (overBudget b.maxBytes b.seen = false → (b.passOn polled inner).1.bytes =
        if overBudget b.maxBytes (b.passOn polled inner).2.seen then [] else polled.bytes) := by
  -- without data the count stays where it is
  have hquiet : ∀ p : Polled HeaderMap E, p.bytes = [] →
      b.seen = min (b.inner.counted + p.bytes.length) (UInt64.size - 1) := by
    intro p hp
    rw [hp, List.length_nil, Nat.add_zero, hseen]
  rw [hcounted]
  cases polled with
  | frame frame =>
    have hafter : seenAfter b.seen frame =
        min (b.inner.counted + (Polled.frame (E := E) frame).bytes.length) (UInt64.size - 1) := by
      cases frame with
      | trailers fields => exact hquiet (.frame (.trailers fields)) rfl
      | data bytes =>
        have hsum : seenAfter b.seen (.data bytes) =
            min (b.seen + bytes.length) (UInt64.size - 1) := rfl
        have hbytes : (Polled.frame (E := E) (.data bytes : Frame HeaderMap)).bytes = bytes := rfl
        rw [hsum, hseen, hbytes]
        omega
    unfold LimitingBody.passOn
    dsimp only
    split
    next => exact ⟨rfl, rfl, hafter, fun _ => rfl⟩
    next => exact ⟨rfl, rfl, hafter, fun _ => by cases frame <;> rfl⟩
  | pending => exact ⟨rfl, rfl, hquiet .pending rfl, fun _ => (ite_self _).symm⟩
  | failed err => exact ⟨rfl, rfl, hquiet (.failed err) rfl, fun _ => (ite_self _).symm⟩
  | finished => exact ⟨rfl, rfl, hquiet .finished rfl, fun _ => (ite_self _).symm⟩

/-- A poll of a response that was cut off changes nothing. -/
theorem poll_of_isCut (h : t.isCut = true) : t.poll = t := by
  rw [poll, LimitingBody.pollFrame_over h]
  exact congrArg (fun received => { t with received }) (List.append_nil _)

/-- A poll of a response that was not cut off polls the upstream's body, and counts. -/
theorem poll_of_not_isCut (h : t.isCut = false)
    (hseen : t.body.seen = min t.counted (UInt64.size - 1)) :
    t.poll.body.maxBytes = t.body.maxBytes ∧
      t.poll.body.inner.inner = (pollFrame t.body.inner.inner).2 ∧
      t.poll.counted = t.counted + (pollFrame t.body.inner.inner).1.bytes.length ∧
      t.poll.body.seen = min t.poll.counted (UInt64.size - 1) ∧
      t.poll.received = t.received ++
        if t.poll.isCut then [] else (pollFrame t.body.inner.inner).1.bytes := by
  obtain ⟨hsame, hinner⟩ := pollFrame_countingBody t.body.inner
  have hcount := counted_pollFrame t.body.inner
  have hpoll := t.body.pollFrame_eq
  rw [isCut] at h
  rw [if_neg (by simp [h]), hsame] at hpoll
  obtain ⟨hmax, hrest, hseen', hbytes⟩ := passOn_spec t.body (pollFrame t.body.inner.inner).1
    (pollFrame t.body.inner).2 hseen hcount
  have hbytes' := hbytes h
  rw [← hpoll] at hmax hrest hseen' hbytes'
  have hcounted : t.poll.counted = (pollFrame t.body.inner).2.counted :=
    congrArg CountingBody.counted hrest
  refine ⟨hmax, (congrArg CountingBody.inner hrest).trans hinner, hcounted.trans hcount, ?_, ?_⟩
  · rw [hcounted]
    exact hseen'
  · rw [isCut, show t.poll.body = (pollFrame t.body).2 from rfl, hmax, ← hbytes']
    rfl

/-- A poll that takes a response over its limit starts within it. -/
theorem counted_le_of_cut (hcut : t.isCut = false) (hcut' : t.poll.isCut = true)
    (hmax : t.poll.body.maxBytes = t.body.maxBytes)
    (hseen : t.body.seen = min t.counted (UInt64.size - 1))
    (hseen' : t.poll.body.seen = min t.poll.counted (UInt64.size - 1)) :
    t.counted ≤ t.body.maxBytes.toNat := by
  rw [isCut, overBudget, hmax, hseen', Bool.and_eq_true, decide_eq_true_eq,
    decide_eq_true_eq] at hcut'
  obtain ⟨hpos, hover⟩ := hcut'
  rw [isCut, overBudget, hseen, decide_eq_true hpos, Bool.true_and, decide_eq_false_iff_not] at hcut
  -- the limit is below the largest word, so the word of the count before did not saturate
  omega

/-- A poll keeps a response in order. -/
theorem Ok.poll {limit : UInt64} (h : t.Ok limit) : t.poll.Ok limit := by
  cases hcut : t.isCut with
  | true => rwa [poll_of_isCut hcut]
  | false =>
    obtain ⟨n, hreceived, hon, -⟩ := h.sent
    obtain ⟨hinner, hcounted⟩ := hon hcut
    obtain ⟨hmax, hrest, hcount, hseen, hgot⟩ := poll_of_not_isCut hcut h.seen
    rw [hinner] at hrest hcount hgot
    have hdata : t.poll.counted = totalData (n + 1) t.source := by
      rw [hcount, hcounted, totalData, totalData, Body.dataOf_pollEach_succ, List.length_append]
    refine ⟨hmax.trans h.maxBytes, hseen, ?_⟩
    cases hcut' : t.poll.isCut with
    | true =>
      rw [hcut', if_pos rfl, List.append_nil] at hgot
      have hle := counted_le_of_cut hcut hcut' hmax h.seen hseen
      rw [hcounted, h.maxBytes] at hle
      exact ⟨n, hgot.trans hreceived, fun h => absurd h.symm Bool.false_ne_true,
        fun _ => ⟨hle, hdata⟩⟩
    | false =>
      rw [hcut', if_neg Bool.false_ne_true, hreceived] at hgot
      exact ⟨n + 1, hgot.trans (Body.dataOf_pollEach_succ n t.source).symm,
        fun _ => ⟨hrest.trans (Body.afterPolls_succ_last n t.source).symm, hdata⟩,
        fun h => absurd h Bool.false_ne_true⟩

/-- What a response has added to the counter is what the client has received, and up to one frame
of the upstream's body more if it was cut off. -/
theorem Ok.counted_bounds {limit : UInt64} (h : t.Ok limit) {frameMax : ℕ}
    (hframes : ∀ n, (pollFrame (afterPolls n t.source)).1.bytes.length ≤ frameMax) :
    t.received.length ≤ t.counted ∧
      t.counted ≤ t.received.length + if t.isCut then frameMax else 0 := by
  obtain ⟨n, hreceived, hon, hcut⟩ := h.sent
  have hlength : t.received.length = totalData n t.source := congrArg List.length hreceived
  cases hcase : t.isCut with
  | false =>
    rw [(hon hcase).2, hlength]
    exact ⟨le_refl _, Nat.le_add_right _ _⟩
  | true =>
    rw [(hcut hcase).2, hlength, totalData, totalData, Body.dataOf_pollEach_succ,
      List.length_append, if_pos rfl]
    exact ⟨Nat.le_add_right _ _, Nat.add_le_add_left (hframes n) _⟩

end Transfer

/-! ## All responses -/

namespace Transfers

variable [Body B HeaderMap E] {limits : LimitsConfig} {s s' : Transfers B} {e : TransferEvent}
  {es : List TransferEvent}

/-- The counter is what all responses have added to it, and each of them is in order. -/
structure Inv (limits : LimitsConfig) (s : Transfers B) : Prop where
  transferred : s.transferred = (s.responses.map Transfer.counted).sum
  ok : ∀ t ∈ s.responses, t.Ok limits.maxResponseBodyBytes

/-- Polls only add to the counter. -/
theorem counted_le_poll (t : Transfer B) {limit : UInt64} (h : t.Ok limit) :
    t.counted ≤ t.poll.counted := by
  cases hcut : t.isCut with
  | true => rw [Transfer.poll_of_isCut hcut]
  | false =>
    rw [(Transfer.poll_of_not_isCut hcut h.seen).2.2.1]
    exact Nat.le_add_right _ _

/-- Every step keeps the invariant. -/
theorem Inv.step (h : s.Inv limits) (hstep : Step limits s e s') : s'.Inv limits := by
  cases hstep with
  | shaped source =>
    refine ⟨?_, fun t ht => ?_⟩
    · rw [List.map_append, List.sum_append, ← h.transferred]
      rfl
    · rcases List.mem_append.mp ht with hold | hnew
      · exact h.ok t hold
      · rw [List.mem_singleton.mp hnew]
        exact Transfer.ok_shaped limits source
  | @polled transferred pre post t =>
    have ht := h.ok t (List.mem_append_right _ List.mem_cons_self)
    refine ⟨?_, fun u hu => ?_⟩
    · have hbefore := h.transferred
      have hgrows := counted_le_poll t ht
      dsimp only at hbefore ⊢
      rw [List.map_append, List.map_cons, List.sum_append, List.sum_cons] at hbefore ⊢
      omega
    · rcases List.mem_append.mp hu with hpre | hrest
      · exact h.ok u (List.mem_append_left _ hpre)
      · rcases List.mem_cons.mp hrest with rfl | hpost
        · exact ht.poll
        · exact h.ok u (List.mem_append_right _ (List.mem_cons_of_mem _ hpost))

/-- Every run keeps the invariant. -/
theorem inv_of_run (hrun : Run (Step limits) .init es s) : s.Inv limits :=
  hrun.invariant (fun _ _ _ h hstep => h.step hstep) ⟨rfl, List.forall_mem_nil _⟩

/-- Sums of numbers that are bounded one by one, some of them with a margin. -/
theorem sum_counted_bounds {frameMax : ℕ} (ts : List (Transfer B))
    (h : ∀ t ∈ ts, t.received.length ≤ t.counted ∧
      t.counted ≤ t.received.length + if t.isCut then frameMax else 0) :
    (ts.map fun t => t.received.length).sum ≤ (ts.map Transfer.counted).sum ∧
      (ts.map Transfer.counted).sum ≤
        (ts.map fun t => t.received.length).sum + frameMax * ts.countP Transfer.isCut := by
  induction ts with
  | nil => exact ⟨le_refl _, Nat.zero_le _⟩
  | cons t ts ih =>
    obtain ⟨hlow, hhigh⟩ := ih fun u hu => h u (List.mem_cons_of_mem _ hu)
    obtain ⟨htlow, hthigh⟩ := h t List.mem_cons_self
    rw [List.map_cons, List.map_cons, List.sum_cons, List.sum_cons, List.countP_cons]
    refine ⟨Nat.add_le_add htlow hlow, ?_⟩
    split at hthigh
    next hcut =>
      rw [if_pos hcut, Nat.mul_add, Nat.mul_one]
      omega
    next hcut =>
      rw [if_neg hcut, Nat.add_zero]
      omega

/-- In whatever order the responses are polled: each client has received the data of the first
polls of the upstream's body, and a response that was cut off that within its limit, of which the
next poll made more. The counter is what all clients have received, and for each response that was
cut off up to one frame of the upstream's more. -/
theorem transferred_of_run (hrun : Run (Step limits) .init es s) :
    (∀ t ∈ s.responses, ∃ n, t.received = dataOf (pollEach n t.source) ∧
      (t.isCut = true → t.received.length ≤ limits.maxResponseBodyBytes.toNat ∧
        limits.maxResponseBodyBytes.toNat < totalData (n + 1) t.source)) ∧
    ∀ frameMax, (∀ t ∈ s.responses, ∀ n,
        (pollFrame (afterPolls n t.source)).1.bytes.length ≤ frameMax) →
      s.received ≤ s.transferred ∧ s.transferred ≤ s.received + frameMax * s.cuts := by
  have hinv := inv_of_run hrun
  constructor
  · intro t ht
    obtain ⟨n, hreceived, -, hcut⟩ := (hinv.ok t ht).sent
    refine ⟨n, hreceived, fun h => ?_⟩
    obtain ⟨hle, hcounted⟩ := hcut h
    have hover := h
    rw [Transfer.isCut, overBudget, (hinv.ok t ht).maxBytes, (hinv.ok t ht).seen, hcounted,
      Bool.and_eq_true, decide_eq_true_eq, decide_eq_true_eq] at hover
    exact ⟨(congrArg List.length hreceived).trans_le hle, hover.2.trans_le (Nat.min_le_left _ _)⟩
  · intro frameMax hframes
    rw [hinv.transferred]
    exact sum_counted_bounds s.responses fun t ht =>
      (hinv.ok t ht).counted_bounds (hframes t ht)

/-! ## A response that is cut off -/

/-- Responses of at most five bytes. -/
def fiveBytes : LimitsConfig :=
  { LimitsConfig.default with maxResponseBodyBytes := 5 }

/-- A response of two frames of three bytes, after some polls. -/
def afterSome (n : ℕ) : Transfer (Body.Source HeaderMap Str) :=
  Transfer.poll^[n] (.shaped fiveBytes LimitingBody.sixBytes)

/-- Its only connection polls four times. -/
theorem run_fourPolls :
    Run (Step fiveBytes) (.init (B := Body.Source HeaderMap Str))
      [.shaped, .polled, .polled, .polled, .polled]
      { transferred := 6, responses := [afterSome 4] } :=
  .cons (.shaped LimitingBody.sixBytes) (.cons (.polled (afterSome 0))
    (.cons (.polled (afterSome 1)) (.cons (.polled (afterSome 2))
      (.single (.polled (afterSome 3))))))

/-- The client has received the first frame, and the counter has both. -/
theorem transferred_of_run_fourPolls :
    (∀ t ∈ [afterSome 4], ∃ n, t.received = dataOf (pollEach n t.source) ∧
      (t.isCut = true → t.received.length ≤ 5 ∧ 5 < totalData (n + 1) t.source)) ∧
    (({ transferred := 6, responses := [afterSome 4] } : Transfers _).received = 3 ∧
      3 ≤ 6 ∧ 6 ≤ 3 + 3 * 1) := by
  obtain ⟨hreceived, hcounter⟩ := transferred_of_run run_fourPolls
  refine ⟨hreceived, by decide +kernel, hcounter 3 fun t ht n => ?_⟩
  obtain rfl := List.mem_singleton.mp ht
  rw [show (afterSome 4).source = LimitingBody.sixBytes from rfl,
    Body.Source.pollFrame_afterPolls]
  match n with
  | 0 | 1 | 2 | 3 | 4 => decide
  | n + 5 => exact Nat.le_add_left 1 2

end Transfers

end Corx
