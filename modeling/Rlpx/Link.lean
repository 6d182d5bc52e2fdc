/-
# Two programs over one connection

The encryption handshake is two Go functions, `initiatorEncHandshake` and
`receiverEncHandshake`, each calling `conn.Write` and `io.ReadFull` on its end of one
connection. A `Proc` is such a function seen from the connection: it ends with a result
or a fault, writes bytes, or reads exactly `n` bytes and continues with them. A `Link`
runs two of them against each other over a faithful channel, with the bytes in flight
each way; a step lets one side write, or read once enough bytes have arrived.

A party's next step is fixed by its program, and steps of the two parties commute, so
the link is confluent (`Link.Step.diamond`, `Link.join`): from any start, a halted
state that some interleaving reaches is the only halted state any interleaving reaches
(`Link.halted_unique`), and every run can still be finished there
(`Link.reaches_halted`).

A program's conversation is a script of `Event`s (`Proc.play`); scripts compose along
`bind` (`Proc.play_bind`), and two programs whose scripts are dual run each other to the
end (`Link.reaches_of_play`), so a protocol run is checked one side at a time.
Conversely, along every run each side has followed a script, and what one side has
written is what the other has read followed by what is in flight
(`Link.exists_after_flow`): the channel loses, duplicates and reorders nothing.
-/
import Rlpx.Basic

namespace Rlpx

/-- A program over a byte connection: it ends with a result or a fault, writes bytes, or
reads exactly `n` bytes (`io.ReadFull`) and continues with what it read. -/
inductive Proc (α : Type) where
  | done (r : Except Fault α)
  | write (b : Bytes) (k : Proc α)
  | read (n : Nat) (k : Bytes → Proc α)

namespace Proc

variable {α β : Type}

/-- Run `p`, then `f` on its result; a fault ends the program. -/
def bind : Proc α → (α → Proc β) → Proc β
  | done (.ok a), f => f a
  | done (.error e), _ => done (.error e)
  | write b k, f => write b (bind k f)
  | read n k, f => read n (fun bs => bind (k bs) f)

/-- Programs chain with `bind`. -/
instance : Monad Proc where
  pure a := done (.ok a)
  bind := bind

/-- End with the fault `e`. -/
def throw (e : Fault) : Proc α := done (.error e)

/-- A computation that does no I/O. -/
def lift (r : Except Fault α) : Proc α := done r

/-- `conn.Write(b)`. -/
def send (b : Bytes) : Proc Unit := write b (done (.ok ()))

/-- `io.ReadFull(conn, buf)` with a buffer of `n` bytes. -/
def recv (n : Nat) : Proc Bytes := read n (fun bs => done (.ok bs))

/-- Returning a value is a program that is done with it. -/
@[simp] theorem pure_eq (a : α) : (pure a : Proc α) = done (.ok a) := rfl

/-- A program done with a value passes it on. -/
@[simp] theorem done_ok_bind (a : α) (f : α → Proc β) : (done (.ok a) >>= f) = f a := rfl

/-- A program done with a fault ends the chain with it. -/
@[simp] theorem done_error_bind (e : Fault) (f : α → Proc β) :
    (done (.error e) >>= f) = done (.error e) := rfl

/-- A chain that starts with a write writes first. -/
@[simp] theorem write_bind (b : Bytes) (k : Proc α) (f : α → Proc β) :
    (write b k >>= f) = write b (k >>= f) := rfl

/-- A chain that starts with a read reads first. -/
@[simp] theorem read_bind (n : Nat) (k : Bytes → Proc α) (f : α → Proc β) :
    (read n k >>= f) = read n (fun bs => k bs >>= f) := rfl

/-- A fault ends the chain. -/
@[simp] theorem throw_bind (e : Fault) (f : α → Proc β) : (throw e >>= f) = throw e := rfl

/-- Lifting a value is a program done with it. -/
@[simp] theorem lift_ok (a : α) : (lift (.ok a) : Proc α) = done (.ok a) := rfl

/-- Lifting a fault is a program done with it. -/
@[simp] theorem lift_error (e : Fault) : (lift (.error e) : Proc α) = done (.error e) := rfl

/-- `send` followed by more writes its bytes and goes on. -/
@[simp] theorem send_bind (b : Bytes) (f : Unit → Proc β) : (send b >>= f) = write b (f ()) :=
  rfl

/-- `recv` followed by more reads its bytes and goes on with them. -/
@[simp] theorem recv_bind (n : Nat) (f : Bytes → Proc β) : (recv n >>= f) = read n f := rfl

end Proc

/-- Two programs joined by a connection, with the bytes each has written and the other
has not yet read. -/
structure Link (α β : Type) where
  a : Proc α
  b : Proc β
  ab : Bytes
  ba : Bytes

namespace Link

variable {α β : Type}

/-- One step of either side. -/
inductive Step : Link α β → Link α β → Prop
  | writeA (x : Bytes) (k : Proc α) (q : Proc β) (ab ba : Bytes) :
      Step ⟨.write x k, q, ab, ba⟩ ⟨k, q, ab ++ x, ba⟩
  | readA (n : Nat) (k : Bytes → Proc α) (q : Proc β) (ab ba : Bytes) (h : n ≤ ba.length) :
      Step ⟨.read n k, q, ab, ba⟩ ⟨k (ba.take n), q, ab, ba.drop n⟩
  | writeB (p : Proc α) (x : Bytes) (k : Proc β) (ab ba : Bytes) :
      Step ⟨p, .write x k, ab, ba⟩ ⟨p, k, ab, ba ++ x⟩
  | readB (p : Proc α) (n : Nat) (k : Bytes → Proc β) (ab ba : Bytes) (h : n ≤ ab.length) :
      Step ⟨p, .read n k, ab, ba⟩ ⟨p, k (ab.take n), ab.drop n, ba⟩

/-- Runs of the link. -/
abbrev Reaches : Link α β → Link α β → Prop := Relation.ReflTransGen Step

/-- No step is possible: both sides are done, or the rest wait for bytes that will not
come. -/
def Halted (s : Link α β) : Prop := ∀ t, ¬ Step s t

/-- Two programs that are both done take no step. -/
theorem halted_done (r : Except Fault α) (r' : Except Fault β) (ab ba : Bytes) :
    Halted (⟨.done r, .done r', ab, ba⟩ : Link α β) := by
  intro t h; cases h

/-- The first side waits for bytes the second, which has ended, will never write. -/
theorem halted_read_done {n : Nat} (k : Bytes → Proc α) (r : Except Fault β) (ab : Bytes)
    (hn : 0 < n) : Halted (⟨.read n k, .done r, ab, []⟩ : Link α β) := by
  intro t h
  cases h with
  | readA _ _ _ _ _ h => simp at h; omega

/-- Reading more bytes behind what is already buffered does not change the read. -/
theorem readB_append {p : Proc α} {n : Nat} {k : Bytes → Proc β} {ab ba x : Bytes}
    (h : n ≤ ab.length) :
    Step ⟨p, .read n k, ab ++ x, ba⟩ ⟨p, k (ab.take n), ab.drop n ++ x, ba⟩ := by
  have := Step.readB p n k (ab ++ x) ba (by simp; omega)
  rwa [List.take_append_of_le_length h, List.drop_append_of_le_length h] at this

/-- Reading more bytes behind what is already buffered does not change the read. -/
theorem readA_append {q : Proc β} {n : Nat} {k : Bytes → Proc α} {ab ba x : Bytes}
    (h : n ≤ ba.length) :
    Step ⟨.read n k, q, ab, ba ++ x⟩ ⟨k (ba.take n), q, ab, ba.drop n ++ x⟩ := by
  have := Step.readA n k q ab (ba ++ x) (by simp; omega)
  rwa [List.take_append_of_le_length h, List.drop_append_of_le_length h] at this

/-- **The diamond**: two different steps from one state meet again after one step each.
Steps of one side coincide, since its program fixes them; steps of the two sides touch
different ends of the two queues. -/
theorem Step.diamond {s t u : Link α β} (h₁ : Step s t) (h₂ : Step s u) :
    t = u ∨ ∃ v, Step t v ∧ Step u v := by
  cases h₁ with
  | writeA x k q ab ba =>
    cases h₂ with
    | writeA => exact .inl rfl
    | writeB _ y k' => exact .inr ⟨_, .writeB _ _ _ _ _, .writeA _ _ _ _ _⟩
    | readB _ n k' _ _ h => exact .inr ⟨_, readB_append h, .writeA _ _ _ _ _⟩
  | readA n k q ab ba h =>
    cases h₂ with
    | readA => exact .inl rfl
    | writeB _ y k' => exact .inr ⟨_, .writeB _ _ _ _ _, readA_append h⟩
    | readB _ m k' _ _ h' => exact .inr ⟨_, .readB _ _ _ _ _ h', .readA _ _ _ _ _ h⟩
  | writeB p x k ab ba =>
    cases h₂ with
    | writeA y k' => exact .inr ⟨_, .writeA _ _ _ _ _, .writeB _ _ _ _ _⟩
    | readA m k' _ _ _ h => exact .inr ⟨_, readA_append h, .writeB _ _ _ _ _⟩
    | writeB => exact .inl rfl
  | readB p n k ab ba h =>
    cases h₂ with
    | writeA y k' => exact .inr ⟨_, .writeA _ _ _ _ _, readB_append h⟩
    | readA m k' _ _ _ h' => exact .inr ⟨_, .readA _ _ _ _ _ h', .readB _ _ _ _ _ h⟩
    | readB => exact .inl rfl

/-- **Confluence**: any two runs from one state can be continued to a common state. -/
theorem join {s t u : Link α β} (ht : Reaches s t) (hu : Reaches s u) :
    Relation.Join Reaches t u :=
  Relation.church_rosser (fun _ _ _ hb hc => (Step.diamond hb hc).elim
    (fun h => ⟨_, .refl, h ▸ .refl⟩) (fun ⟨v, hv, hv'⟩ => ⟨v, .single hv, .single hv'⟩)) ht hu

/-- A halted link goes nowhere. -/
theorem eq_of_halted {t w : Link α β} (ht : Halted t) (h : Reaches t w) : w = t := by
  rcases Relation.ReflTransGen.cases_head h with rfl | ⟨c, hc, -⟩
  · rfl
  · exact absurd hc (ht c)

/-- **One end**: all the halted states the runs from `s` reach are the same. -/
theorem halted_unique {s t u : Link α β} (ht : Reaches s t) (hu : Reaches s u) (hth : Halted t)
    (huh : Halted u) : t = u := by
  obtain ⟨w, htw, huw⟩ := join ht hu
  rw [← eq_of_halted hth htw, eq_of_halted huh huw]

/-- **No run strays**: every state some run reaches can still be run to the halted state
that one run reaches. -/
theorem reaches_halted {s t u : Link α β} (ht : Reaches s t) (hth : Halted t) (hu : Reaches s u) :
    Reaches u t := by
  obtain ⟨w, htw, huw⟩ := join ht hu
  rwa [eq_of_halted hth htw] at huw

end Link

/-! ## Scripts -/

/-- What a program does on its end of the connection: write these bytes, or read these
bytes. -/
inductive Event where
  | write (b : Bytes)
  | read (b : Bytes)
  deriving DecidableEq, Repr

/-- The event the other end sees. -/
def Event.dual : Event → Event
  | .write b => .read b
  | .read b => .write b

/-- The bytes an event writes. -/
@[simp] def Event.sentBytes : Event → Bytes
  | .write b => b
  | .read _ => []

/-- The bytes an event reads. -/
@[simp] def Event.receivedBytes : Event → Bytes
  | .write _ => []
  | .read b => b

/-- The bytes a script writes, in order. -/
def Event.sent (es : List Event) : Bytes := es.flatMap Event.sentBytes

/-- The bytes a script reads, in order. -/
def Event.received (es : List Event) : Bytes := es.flatMap Event.receivedBytes

/-- A script's writes are those of its parts, in order. -/
@[simp] theorem Event.sent_append (es es' : List Event) :
    Event.sent (es ++ es') = Event.sent es ++ Event.sent es' := List.flatMap_append _ _ _

/-- A script's reads are those of its parts, in order. -/
@[simp] theorem Event.received_append (es es' : List Event) :
    Event.received (es ++ es') = Event.received es ++ Event.received es' :=
  List.flatMap_append _ _ _

/-- The empty script writes nothing. -/
@[simp] theorem Event.sent_nil : Event.sent [] = [] := rfl

/-- The empty script reads nothing. -/
@[simp] theorem Event.received_nil : Event.received [] = [] := rfl

/-- A script's writes are its first event's, then the rest's. -/
@[simp] theorem Event.sent_cons (e : Event) (es : List Event) :
    Event.sent (e :: es) = e.sentBytes ++ Event.sent es := rfl

/-- A script's reads are its first event's, then the rest's. -/
@[simp] theorem Event.received_cons (e : Event) (es : List Event) :
    Event.received (e :: es) = e.receivedBytes ++ Event.received es := rfl

namespace Proc

variable {α β : Type}

/-- `p.play es`: the result `p` ends with when it performs exactly the events `es`, each
write writing the given bytes and each read asking for as many bytes as given and getting
them; `none` when `p` does something else. -/
def play : Proc α → List Event → Option (Except Fault α)
  | done r, [] => some r
  | write x k, .write y :: es => if x = y then play k es else none
  | read n k, .read y :: es => if n = y.length then play (k y) es else none
  | _, _ => none

/-- A program that is done ends with its result on the empty script. -/
@[simp] theorem play_done_nil (r : Except Fault α) : (done r).play [] = some r := rfl

/-- A write performs a write event of exactly its bytes. -/
@[simp] theorem play_write (x y : Bytes) (k : Proc α) (es : List Event) :
    (write x k).play (.write y :: es) = if x = y then k.play es else none := rfl

/-- A read performs a read event of exactly as many bytes as it asks for. -/
@[simp] theorem play_read (n : Nat) (y : Bytes) (k : Bytes → Proc α) (es : List Event) :
    (read n k).play (.read y :: es) = if n = y.length then (k y).play es else none := rfl

/-- A program that ends on the empty script is done. -/
theorem eq_done_of_play_nil {p : Proc α} {r : Except Fault α} (h : p.play [] = some r) :
    p = done r := by
  cases p with
  | done r' => cases h; rfl
  | _ => cases h

/-- A program whose script starts with a write of `y` writes `y` first. -/
theorem eq_write_of_play {p : Proc α} {y : Bytes} {es : List Event} {r : Except Fault α}
    (h : p.play (.write y :: es) = some r) : ∃ k, p = write y k ∧ k.play es = some r := by
  cases p with
  | write x k =>
    rw [play_write] at h
    split_ifs at h with hxy
    exact ⟨k, hxy ▸ rfl, h⟩
  | _ => cases h

/-- A program whose script starts with a read of `y` reads `y.length` bytes first. -/
theorem eq_read_of_play {p : Proc α} {y : Bytes} {es : List Event} {r : Except Fault α}
    (h : p.play (.read y :: es) = some r) :
    ∃ k, p = read y.length k ∧ (k y).play es = some r := by
  cases p with
  | read n k =>
    rw [play_read] at h
    split_ifs at h with hn
    exact ⟨k, hn ▸ rfl, h⟩
  | _ => cases h

/-- **Scripts compose**: a program that performs `es` and ends with `r`, followed by `f`,
performs `es` and then what `f` does after `r`. -/
theorem play_bind_append {p : Proc α} {f : α → Proc β} {es : List Event} {r : Except Fault α}
    (h : p.play es = some r) (es' : List Event) :
    (p >>= f).play (es ++ es') = (done r >>= f).play es' := by
  induction es generalizing p with
  | nil => rw [eq_done_of_play_nil h]; rfl
  | cons e es ih =>
    cases e with
    | write y =>
      obtain ⟨k, rfl, hk⟩ := eq_write_of_play h
      simp [ih hk]
    | read y =>
      obtain ⟨k, rfl, hk⟩ := eq_read_of_play h
      simp [ih hk]

/-- A program that returns a value on its script, followed by `f`, goes on as `f` does on
that value. -/
theorem play_bind {p : Proc α} {f : α → Proc β} {es : List Event} {a : α}
    (h : p.play es = some (.ok a)) (es' : List Event) :
    (p >>= f).play (es ++ es') = (f a).play es' :=
  play_bind_append h es'

/-- A fault ends the program: what follows it is never run. -/
theorem play_bind_error {p : Proc α} {f : α → Proc β} {es : List Event} {e : Fault}
    (h : p.play es = some (.error e)) : (p >>= f).play es = some (.error e) := by
  simpa using play_bind_append (f := f) h []

/-- A program that is done performs only the empty script, to its own result. -/
theorem play_done_inv {r r' : Except Fault α} {es : List Event} (h : (done r).play es = some r') :
    es = [] ∧ r = r' := by
  cases es with
  | nil => exact ⟨rfl, Option.some.inj h⟩
  | cons e es => cases e <;> cases h

/-- A write's script starts with the write of its bytes. -/
theorem play_write_inv {x : Bytes} {k : Proc α} {es : List Event} {r : Except Fault α}
    (h : (write x k).play es = some r) : ∃ es', es = .write x :: es' ∧ k.play es' = some r := by
  rcases es with _ | ⟨_ | y, es⟩
  · cases h
  · obtain ⟨k', hk, h⟩ := eq_write_of_play h
    obtain ⟨rfl, rfl⟩ := write.inj hk
    exact ⟨es, rfl, h⟩
  · cases h

/-- A read's script starts with a read of as many bytes as it asks for. -/
theorem play_read_inv {n : Nat} {k : Bytes → Proc α} {es : List Event} {r : Except Fault α}
    (h : (read n k).play es = some r) :
    ∃ y es', es = .read y :: es' ∧ y.length = n ∧ (k y).play es' = some r := by
  rcases es with _ | ⟨_ | y, es⟩
  · cases h
  · cases h
  · obtain ⟨k', hk, h⟩ := eq_read_of_play h
    obtain ⟨rfl, rfl⟩ := read.inj hk
    exact ⟨y, es, rfl, rfl, h⟩

/-- A program that is done ends with `r'` on exactly the empty script, when `r'` is its
result. -/
@[simp] theorem play_done_eq_some {r r' : Except Fault α} {es : List Event} :
    (done r).play es = some r' ↔ es = [] ∧ r = r' :=
  ⟨play_done_inv, fun ⟨he, hr⟩ => by rw [he, hr]; rfl⟩

/-- A computation without I/O that a script gets past has returned a value. -/
theorem play_lift_bind_inv {r : Except Fault α} {f : α → Proc β} {es : List Event} {b : β}
    (h : (lift r >>= f).play es = some (.ok b)) : ∃ a, r = .ok a ∧ (f a).play es = some (.ok b) := by
  cases r with
  | error e => cases (play_done_inv h).2
  | ok a => exact ⟨a, rfl, h⟩

/-- **A script through a bind splits**: a program `p >>= f` that performs `es` and ends
with `r` performed a prefix of `es` as `p`, ending with some `r₁`, and the rest as what
follows `r₁`. -/
theorem play_bind_split {p : Proc α} {f : α → Proc β} {es : List Event} {r : Except Fault β}
    (h : (p >>= f).play es = some r) :
    ∃ es₁ es₂ r₁, es = es₁ ++ es₂ ∧ p.play es₁ = some r₁ ∧ (done r₁ >>= f).play es₂ = some r := by
  induction es generalizing p with
  | nil =>
    cases p with
    | done r₁ => exact ⟨[], [], r₁, rfl, rfl, h⟩
    | write x k => cases h
    | read n k => cases h
  | cons e es ih =>
    cases p with
    | done r₁ => exact ⟨[], e :: es, r₁, rfl, rfl, h⟩
    | write x k =>
      cases e with
      | read y => cases h
      | write y =>
        simp only [write_bind, play_write] at h
        split_ifs at h with hxy
        obtain ⟨es₁, es₂, r₁, rfl, h₁, h₂⟩ := ih h
        exact ⟨.write y :: es₁, es₂, r₁, rfl, by simpa [hxy] using h₁, h₂⟩
    | read n k =>
      cases e with
      | write y => cases h
      | read y =>
        simp only [read_bind, play_read] at h
        split_ifs at h with hn
        obtain ⟨es₁, es₂, r₁, rfl, h₁, h₂⟩ := ih h
        exact ⟨.read y :: es₁, es₂, r₁, rfl, by simpa [hn] using h₁, h₂⟩

/-- The split of a script that ends with a value: `p` ended with a value too. -/
theorem play_bind_inv {p : Proc α} {f : α → Proc β} {es : List Event} {b : β}
    (h : (p >>= f).play es = some (.ok b)) :
    ∃ es₁ es₂ a, es = es₁ ++ es₂ ∧ p.play es₁ = some (.ok a) ∧ (f a).play es₂ = some (.ok b) := by
  obtain ⟨es₁, es₂, r₁, rfl, h₁, h₂⟩ := play_bind_split h
  cases r₁ with
  | error e => cases (play_done_inv h₂).2
  | ok a => exact ⟨es₁, es₂, a, rfl, h₁, h₂⟩

/-- **Every program ends on some script**: a program is a finite tree of writes and
reads. -/
theorem exists_play (p : Proc α) : ∃ es r, p.play es = some r := by
  induction p with
  | done r => exact ⟨[], r, rfl⟩
  | write x k ih =>
    obtain ⟨es, r, h⟩ := ih
    exact ⟨.write x :: es, r, by simpa using h⟩
  | read n k ih =>
    obtain ⟨es, r, h⟩ := ih (List.replicate n 0)
    exact ⟨.read (List.replicate n 0) :: es, r, by simpa using h⟩

/-- `p` has performed the events `es` and is now `p'`: whatever `p'` performs next, `p`
performs after `es`, to the same end. -/
def After (p : Proc α) (es : List Event) (p' : Proc α) : Prop :=
  ∀ es', p.play (es ++ es') = p'.play es'

/-- A program has performed nothing and is itself. -/
theorem After.refl (p : Proc α) : After p [] p := fun _ => rfl

/-- A program about to write has, after the write, performed it. -/
theorem After.write {p : Proc α} {es : List Event} {x : Bytes} {k : Proc α}
    (h : After p es (write x k)) : After p (es ++ [.write x]) k := fun es' => by
  simpa using h (.write x :: es')

/-- A program about to read has, after reading `y`, performed that read. -/
theorem After.read {p : Proc α} {es : List Event} {n : Nat} {k : Bytes → Proc α} {y : Bytes}
    (h : After p es (read n k)) (hy : y.length = n) : After p (es ++ [.read y]) (k y) :=
  fun es' => by simpa [hy] using h (.read y :: es')

/-- A program that returns without I/O, followed by `f`, goes on as `f` does on its value. -/
theorem play_bind_nil {p : Proc α} {f : α → Proc β} {a : α} (h : p.play [] = some (.ok a))
    (es : List Event) : (p >>= f).play es = (f a).play es :=
  play_bind h es

/-- A program that returns a value on its script, followed by `f`, ends as `f` ends on that
value with nothing more. -/
theorem play_bind_end {p : Proc α} {f : α → Proc β} {es : List Event} {a : α}
    (h : p.play es = some (.ok a)) : (p >>= f).play es = (f a).play [] := by
  simpa using play_bind h []

end Proc

namespace Link

variable {α β : Type}

/-- **Dual scripts run each other**: when `p` performs the events `es` and then `esp`,
and `q` performs the duals of `es` and then `esq`, the two joined by an empty connection
get through `es` to programs that perform `esp` and `esq`, with nothing in flight. -/
theorem reaches_of_play_append {p : Proc α} {q : Proc β} {es esp esq : List Event}
    {r : Except Fault α} {r' : Except Fault β} (hp : p.play (es ++ esp) = some r)
    (hq : q.play (es.map Event.dual ++ esq) = some r') :
    ∃ p' q', Reaches ⟨p, q, [], []⟩ ⟨p', q', [], []⟩ ∧ p'.play esp = some r ∧
      q'.play esq = some r' := by
  induction es generalizing p q with
  | nil => exact ⟨p, q, .refl, hp, hq⟩
  | cons e es ih =>
    cases e with
    | write y =>
      obtain ⟨k, rfl, hk⟩ := Proc.eq_write_of_play hp
      obtain ⟨k', rfl, hk'⟩ := Proc.eq_read_of_play hq
      obtain ⟨p', q', hr, hp', hq'⟩ := ih hk hk'
      have h := Step.readB k y.length k' y [] le_rfl
      rw [List.take_length, List.drop_length] at h
      exact ⟨p', q', .head (.writeA _ _ _ _ _) (.head h hr), hp', hq'⟩
    | read y =>
      obtain ⟨k, rfl, hk⟩ := Proc.eq_read_of_play hp
      obtain ⟨k', rfl, hk'⟩ := Proc.eq_write_of_play hq
      obtain ⟨p', q', hr, hp', hq'⟩ := ih hk hk'
      have h := Step.readA y.length k k' [] y le_rfl
      rw [List.take_length, List.drop_length] at h
      exact ⟨p', q', .head (.writeB _ _ _ _ _) (.head h hr), hp', hq'⟩

/-- **Dual scripts complete**: when `p` performs the events `es` and ends with `r`, and `q`
performs the dual events and ends with `r'`, the two joined by an empty connection run to
both ends with nothing left in flight. -/
theorem reaches_of_play {p : Proc α} {q : Proc β} {es : List Event} {r : Except Fault α}
    {r' : Except Fault β} (hp : p.play es = some r) (hq : q.play (es.map Event.dual) = some r') :
    Reaches ⟨p, q, [], []⟩ ⟨.done r, .done r', [], []⟩ := by
  obtain ⟨p', q', h, hp', hq'⟩ :=
    reaches_of_play_append (by rwa [List.append_nil] : p.play (es ++ []) = some r)
      (by rwa [List.append_nil] : q.play (es.map Event.dual ++ []) = some r')
  rwa [Proc.eq_done_of_play_nil hp', Proc.eq_done_of_play_nil hq'] at h

/-- **The connection neither loses, duplicates nor reorders bytes**: along every run
from an empty connection, each program has performed some events and become what the run
shows, and what each side has written is what the other has read, followed by what is
still in flight. -/
theorem exists_after_flow {p : Proc α} {q : Proc β} {t : Link α β}
    (h : Reaches ⟨p, q, [], []⟩ t) :
    ∃ esA esB, p.After esA t.a ∧ q.After esB t.b ∧
      Event.sent esA = Event.received esB ++ t.ab ∧ Event.sent esB = Event.received esA ++ t.ba := by
  induction h with
  | refl => exact ⟨[], [], .refl p, .refl q, rfl, rfl⟩
  | tail _ hst ih =>
    obtain ⟨esA, esB, hA, hB, hab, hba⟩ := ih
    cases hst with
    | writeA => exact ⟨_, esB, hA.write, hB, by simp [hab], by simpa using hba⟩
    | readA n k q ab ba hn =>
      exact ⟨_, esB, hA.read (by simpa using hn), hB, by simpa using hab, by simp [hba]⟩
    | writeB => exact ⟨esA, _, hA, hB.write, by simpa using hab, by simp [hba]⟩
    | readB p n k ab ba hn =>
      exact ⟨esA, _, hA, hB.read (by simpa using hn), by simp [hab], by simpa using hba⟩

/-- **Each side of a run has followed a script**: along every run from an empty
connection, each program has performed some events and become what the run shows. -/
theorem exists_after {p : Proc α} {q : Proc β} {t : Link α β}
    (h : Reaches ⟨p, q, [], []⟩ t) : ∃ esA esB, p.After esA t.a ∧ q.After esB t.b := by
  obtain ⟨esA, esB, hA, hB, -⟩ := exists_after_flow h
  exact ⟨esA, esB, hA, hB⟩

end Link

end Rlpx
