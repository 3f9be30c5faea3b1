import Mathlib.Data.List.Basic

/-!
# Bodies that are polled for frames

A streaming body is a state with one operation, `pollFrame`: it is not ready yet, yields a
frame of data or of trailers, fails, or is at its end. Adapters wrap a body in another, and
what a consumer sees is `Body.polls`: it polls until the end or the first failure.

`Body.polls_eq_of_simulation` compares two bodies step by step. `Body.Source` is a body that
follows a given sequence of polls, `Body.MapErr` the adapter that renames failures.
-/

/-- A frame: data, or trailers of type `T`. -/
inductive Body.Frame (T : Type)
  | data (bytes : List UInt8)
  | trailers (fields : T)
  deriving DecidableEq, Repr

/-- What a poll yields; `E` are the failures. -/
inductive Body.Polled (T E : Type)
  | pending
  | frame (frame : Body.Frame T)
  | failed (err : E)
  | finished
  deriving DecidableEq, Repr

/-- A body: its state `B` is polled for frames. -/
class Body (B : Type) (T E : outParam Type) where
  /-- Poll once. -/
  pollFrame : B → Body.Polled T E × B

namespace Body

variable {A B T E E' : Type}

/-- The data of a frame, if it is one of data. -/
def Frame.data? : Frame T → Option (List UInt8)
  | data bytes => some bytes
  | trailers _ => none

/-- The data that a poll yields. -/
def Polled.bytes : Polled T E → List UInt8
  | frame (.data bytes) => bytes
  | _ => []

/-- The stream goes on after the poll. -/
def Polled.continues : Polled T E → Bool
  | pending | frame _ => true
  | failed _ | finished => false

/-- Rename a failure. -/
def Polled.mapErr (f : E → E') : Polled T E → Polled T E'
  | pending => pending
  | frame fr => frame fr
  | failed err => failed (f err)
  | finished => finished

/-- What a consumer gets by at most `n` polls: it stops at the end or at a failure. -/
def polls [Body B T E] : ℕ → B → List (Polled T E)
  | 0, _ => []
  | n + 1, b =>
    let (polled, b) := pollFrame b
    polled :: if polled.continues then polls n b else []

/-- The data in a sequence of polls. -/
def dataOf (ps : List (Polled T E)) : List UInt8 :=
  ps.flatMap Polled.bytes

/-- Two bodies yield the same to every consumer if related states yield the same in each poll
and stay related. -/
theorem polls_eq_of_simulation [Body A T E] [Body B T E] {R : A → B → Prop}
    (hpoll : ∀ a b, R a b → (pollFrame a).1 = (pollFrame b).1)
    (hnext : ∀ a b, R a b → R (pollFrame a).2 (pollFrame b).2) {a : A} {b : B} (h : R a b)
    (n : ℕ) : polls n a = polls n b := by
  induction n generalizing a b with
  | zero => rfl
  | succ n ih =>
    simp only [polls, hpoll a b h, ih (hnext a b h)]

/-! ## Every poll

A body may be polled on after a failure or the end; `pollEach` and `afterPolls` do not stop
there. -/

/-- What `n` polls yield, whatever they yield. -/
def pollEach [Body B T E] : ℕ → B → List (Polled T E)
  | 0, _ => []
  | n + 1, b => (pollFrame b).1 :: pollEach n (pollFrame b).2

/-- The body after `n` polls. -/
def afterPolls [Body B T E] : ℕ → B → B
  | 0, b => b
  | n + 1, b => afterPolls n (pollFrame b).2

/-- The bytes of data that `n` polls yield. -/
def totalData [Body B T E] (n : ℕ) (b : B) : ℕ :=
  (dataOf (pollEach n b)).length

@[simp]
theorem pollEach_zero [Body B T E] (b : B) : pollEach 0 b = [] := rfl

@[simp]
theorem afterPolls_zero [Body B T E] (b : B) : afterPolls 0 b = b := rfl

theorem pollEach_succ [Body B T E] (n : ℕ) (b : B) :
    pollEach (n + 1) b = (pollFrame b).1 :: pollEach n (pollFrame b).2 := rfl

theorem afterPolls_succ [Body B T E] (n : ℕ) (b : B) :
    afterPolls (n + 1) b = afterPolls n (pollFrame b).2 := rfl

/-- The first poll, and then those of the body after it. -/
@[simp]
theorem totalData_succ [Body B T E] (n : ℕ) (b : B) :
    totalData (n + 1) b = (pollFrame b).1.bytes.length + totalData n (pollFrame b).2 := by
  simp [totalData, pollEach_succ, dataOf]

@[simp]
theorem totalData_zero [Body B T E] (b : B) : totalData 0 b = 0 := rfl

/-- Polls of a body are polls of it and then of what it has become. -/
theorem pollEach_add [Body B T E] (k m : ℕ) (b : B) :
    pollEach (k + m) b = pollEach k b ++ pollEach m (afterPolls k b) := by
  induction k generalizing b with
  | zero => simp
  | succ k ih => rw [Nat.succ_add, pollEach_succ, ih, pollEach_succ, afterPolls_succ]; rfl

/-- A body after further polls. -/
theorem afterPolls_add [Body B T E] (k m : ℕ) (b : B) :
    afterPolls (k + m) b = afterPolls m (afterPolls k b) := by
  induction k generalizing b with
  | zero => simp
  | succ k ih => rw [Nat.succ_add, afterPolls_succ, ih, afterPolls_succ]

/-- The data of more polls. -/
theorem totalData_add [Body B T E] (k m : ℕ) (b : B) :
    totalData (k + m) b = totalData k b + totalData m (afterPolls k b) := by
  simp [totalData, pollEach_add, dataOf]

/-- One poll more is a poll of what the body has become. -/
theorem pollEach_succ_last [Body B T E] (n : ℕ) (b : B) :
    pollEach (n + 1) b = pollEach n b ++ [(pollFrame (afterPolls n b)).1] :=
  pollEach_add n 1 b

/-- What a body has become after one poll more. -/
theorem afterPolls_succ_last [Body B T E] (n : ℕ) (b : B) :
    afterPolls (n + 1) b = (pollFrame (afterPolls n b)).2 :=
  afterPolls_add n 1 b

/-- The data of one poll more. -/
theorem dataOf_pollEach_succ [Body B T E] (n : ℕ) (b : B) :
    dataOf (pollEach (n + 1) b) =
      dataOf (pollEach n b) ++ (pollFrame (afterPolls n b)).1.bytes := by
  rw [pollEach_succ_last, dataOf, List.flatMap_append, List.flatMap_singleton, dataOf]

/-! ## Sources -/

/-- A body that follows a sequence of polls. -/
structure Source (T E : Type) where
  script : ℕ → Polled T E

instance : Body (Source T E) T E where
  pollFrame src := (src.script 0, { script := fun n => src.script (n + 1) })

/-- A source yields what its script says. -/
theorem Source.pollFrame_afterPolls (src : Source T E) (n : ℕ) :
    (pollFrame (afterPolls n src)).1 = src.script n := by
  induction n generalizing src with
  | zero => rfl
  | succ n ih => exact ih { script := fun n => src.script (n + 1) }

/-! ## Renaming failures -/

/-- `map_err`: a body whose failures are renamed. -/
structure MapErr (B E E' : Type) where
  inner : B
  f : E → E'

instance [Body B T E] : Body (MapErr B E E') T E' where
  pollFrame b :=
    ((pollFrame b.inner).1.mapErr b.f, { b with inner := (pollFrame b.inner).2 })

/-- Renaming does not end a stream. -/
@[simp]
theorem Polled.continues_mapErr (f : E → E') (p : Polled T E) :
    (p.mapErr f).continues = p.continues := by
  cases p <;> rfl

/-- Renaming leaves the data alone. -/
theorem Polled.bytes_mapErr (f : E → E') (p : Polled T E) : (p.mapErr f).bytes = p.bytes := by
  cases p with
  | frame fr => cases fr <;> rfl
  | pending | failed | finished => rfl

/-- A consumer of the renamed body gets the same polls with the failures renamed. -/
theorem polls_mapErr [Body B T E] (b : B) (f : E → E') (n : ℕ) :
    polls n ({ inner := b, f } : MapErr B E E') = (polls n b).map (Polled.mapErr f) := by
  induction n generalizing b with
  | zero => rfl
  | succ n ih =>
    simp only [polls, pollFrame, Polled.continues_mapErr, List.map_cons]
    rw [ih]
    split <;> rfl

/-- The data of a sequence of polls does not depend on the names of failures. -/
@[simp]
theorem dataOf_map_mapErr (f : E → E') (ps : List (Polled T E)) :
    dataOf (ps.map (Polled.mapErr f)) = dataOf ps := by
  simp [dataOf, List.flatMap_map, Polled.bytes_mapErr]

end Body
