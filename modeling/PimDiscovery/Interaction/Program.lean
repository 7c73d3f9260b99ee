import Mathlib.Data.List.Basic

/-! Interactive programs: trees of questions to an environment. Their meaning against fixed answers,
over all answers, and as the events that answering the questions leaves behind. -/

namespace Interaction

/-- A program that asks questions `q`, is answered with values of `A q`, and ends with a result. -/
inductive Prog (Q : Type) (A : Q → Type) (α : Type) where
  | pure (a : α)
  | ask (q : Q) (next : A q → Prog Q A α)

namespace Prog
variable {Q : Type} {A : Q → Type} {α β γ ε : Type}

def bind : Prog Q A α → (α → Prog Q A β) → Prog Q A β
  | pure a, f => f a
  | ask q next, f => ask q fun a => (next a).bind f

instance : Monad (Prog Q A) where
  pure := pure
  bind := bind

def call (q : Q) : Prog Q A (A q) := ask q pure

@[simp] theorem pure_bind' (a : α) (f : α → Prog Q A β) : (pure a : Prog Q A α) >>= f = f a := rfl

@[simp] theorem return_eq (a : α) : (Pure.pure a : Prog Q A α) = pure a := rfl

@[simp] theorem ask_bind (q : Q) (next : A q → Prog Q A α) (f : α → Prog Q A β) :
    ask q next >>= f = ask q fun a => next a >>= f := rfl

theorem bind_pure' (p : Prog Q A α) : p >>= pure = p := by
  induction p with
  | pure a => rfl
  | ask q next ih =>
    rw [ask_bind]
    congr 1
    funext a
    exact ih a

theorem bind_assoc' (p : Prog Q A α) (f : α → Prog Q A β) (g : β → Prog Q A γ) :
    p >>= f >>= g = p >>= fun a => f a >>= g := by
  induction p with
  | pure a => rfl
  | ask q next ih =>
    simp only [ask_bind]
    congr 1
    funext a
    exact ih a

instance : LawfulMonad (Prog Q A) := LawfulMonad.mk' _
  (fun p => bind_pure' p)
  (fun _ _ => rfl)
  (fun p f g => bind_assoc' p f g)

def eval (o : ∀ q, A q) : Prog Q A α → α
  | pure a => a
  | ask q next => (next (o q)).eval o

section
variable (o : ∀ q, A q)

@[simp] theorem eval_pure (a : α) : (pure a : Prog Q A α).eval o = a := rfl

@[simp] theorem eval_ask (q : Q) (next : A q → Prog Q A α) :
    (ask q next).eval o = (next (o q)).eval o := rfl

@[simp] theorem eval_bind (p : Prog Q A α) (f : α → Prog Q A β) :
    (p >>= f).eval o = (f (p.eval o)).eval o := by
  induction p with
  | pure a => rfl
  | ask q next ih => exact ih (o q)

def asked : Prog Q A α → List Q
  | pure _ => []
  | ask q next => q :: (next (o q)).asked

@[simp] theorem asked_bind (p : Prog Q A α) (f : α → Prog Q A β) :
    (p >>= f).asked o = p.asked o ++ (f (p.eval o)).asked o := by
  induction p with
  | pure a => rfl
  | ask q next ih => exact congrArg (q :: ·) (ih (o q))

theorem eval_congr {o o' : ∀ q, A q} {p : Prog Q A α} (h : ∀ q ∈ p.asked o, o q = o' q) :
    p.eval o = p.eval o' := by
  induction p with
  | pure a => rfl
  | ask q next ih =>
    obtain ⟨hq, hnext⟩ := List.forall_mem_cons.mp h
    rw [eval_ask, eval_ask, ← hq]
    exact ih (o q) hnext

end

/-- Every question asked satisfies `asks` and every result `post`, whatever `allowed` answers are
given. -/
def Always (asks : Q → Prop) (allowed : ∀ q, A q → Prop) (post : α → Prop) : Prog Q A α → Prop
  | pure a => post a
  | ask q next => asks q ∧ ∀ a, allowed q a → (next a).Always asks allowed post

section
variable {asks : Q → Prop} {allowed : ∀ q, A q → Prop}

theorem Always.mono {post post' : α → Prop} {p : Prog Q A α} (h : p.Always asks allowed post)
    (hpost : ∀ a, post a → post' a) : p.Always asks allowed post' := by
  induction p with
  | pure a => exact hpost a h
  | ask q next ih => exact ⟨h.1, fun a ha => ih a (h.2 a ha)⟩

theorem Always.weaken {asks' : Q → Prop} {post : α → Prop} {p : Prog Q A α}
    (h : p.Always asks allowed post) (hasks : ∀ q, asks q → asks' q) :
    p.Always asks' allowed post := by
  induction p with
  | pure a => exact h
  | ask q next ih => exact ⟨hasks q h.1, fun a ha => ih a (h.2 a ha)⟩

theorem Always.bind {mid : α → Prop} {post : β → Prop} {p : Prog Q A α} {f : α → Prog Q A β}
    (h : p.Always asks allowed mid) (hf : ∀ a, mid a → (f a).Always asks allowed post) :
    (p >>= f).Always asks allowed post := by
  induction p with
  | pure a => exact hf a h
  | ask q next ih => exact ⟨h.1, fun a ha => ih a (h.2 a ha)⟩

theorem Always.call {q : Q} (h : asks q) : (call q).Always asks allowed (allowed q) :=
  ⟨h, fun _ ha => ha⟩

theorem Always.trivial (p : Prog Q A α) : p.Always (fun _ => True) allowed fun _ => True := by
  induction p with
  | pure a => trivial
  | ask q next ih => exact ⟨True.intro, fun a _ => ih a⟩

theorem Always.asked {post : α → Prop} {p : Prog Q A α} (h : p.Always asks allowed post)
    {o : ∀ q, A q} (ho : ∀ q, allowed q (o q)) : ∀ q ∈ p.asked o, asks q := by
  induction p with
  | pure a => exact List.forall_mem_nil _
  | ask q next ih => exact List.forall_mem_cons.mpr ⟨h.1, ih _ (h.2 _ (ho q))⟩

end

theorem Always.eval_congr {asks : Q → Prop} {allowed : ∀ q, A q → Prop} {post : α → Prop}
    {p : Prog Q A α} (h : p.Always asks allowed post) {o o' : ∀ q, A q} (ho : ∀ q, allowed q (o q))
    (hsame : ∀ q, asks q → o q = o' q) : p.eval o = p.eval o' :=
  Prog.eval_congr fun q hq => hsame q (h.asked ho q hq)

def AtMost (counts : Q → Bool) : Prog Q A α → Nat → Prop
  | pure _, _ => True
  | ask q next, n => ∃ m, (if counts q then m + 1 else m) ≤ n ∧ ∀ a, (next a).AtMost counts m

section
variable {counts : Q → Bool}

theorem AtMost.mono {p : Prog Q A α} {m n : Nat} (h : p.AtMost counts m) (hmn : m ≤ n) :
    p.AtMost counts n := by
  cases p with
  | pure a => trivial
  | ask q next =>
    obtain ⟨left, hleft, hnext⟩ := h
    exact ⟨left, Nat.le_trans hleft hmn, hnext⟩

theorem AtMost.bind {p : Prog Q A α} {f : α → Prog Q A β} {m n : Nat} (h : p.AtMost counts m)
    (hf : ∀ a, (f a).AtMost counts n) : (p >>= f).AtMost counts (m + n) := by
  induction p generalizing m with
  | pure a => exact (hf a).mono (Nat.le_add_left n m)
  | ask q next ih =>
    obtain ⟨left, hleft, hnext⟩ := h
    refine ⟨left + n, ?_, fun a => ih a (hnext a)⟩
    split at hleft
    · rw [if_pos ‹_›]
      omega
    · rw [if_neg ‹_›]
      omega

theorem AtMost.ask {q : Q} {next : A q → Prog Q A α} {n : Nat}
    (h : ∀ a, (next a).AtMost counts n) :
    (Prog.ask q next).AtMost counts ((if counts q then 1 else 0) + n) := by
  refine ⟨n, ?_, h⟩
  split <;> omega

end

/-- `a` is the result under some `allowed` answers. -/
def Returns (allowed : ∀ q, A q → Prop) : Prog Q A α → α → Prop
  | pure b, a => a = b
  | ask q next, a => ∃ x, allowed q x ∧ (next x).Returns allowed a

theorem Always.returns {asks : Q → Prop} {allowed : ∀ q, A q → Prop} {post : α → Prop}
    {p : Prog Q A α} (h : p.Always asks allowed post) {a : α} (ha : p.Returns allowed a) :
    post a := by
  induction p with
  | pure b =>
    obtain rfl := ha
    exact h
  | ask q next ih =>
    obtain ⟨x, hx, hr⟩ := ha
    exact ih x (h.2 x hx) hr

theorem returns_eval {allowed : ∀ q, A q → Prop} {o : ∀ q, A q} (ho : ∀ q, allowed q (o q))
    (p : Prog Q A α) : p.Returns allowed (p.eval o) := by
  induction p with
  | pure a => rfl
  | ask q next ih => exact ⟨o q, ho q, ih _⟩

def forEach (xs : List α) (f : α → Prog Q A β) : Prog Q A (List β) :=
  match xs with
  | [] => pure []
  | x :: xs => f x >>= fun y => forEach xs f >>= fun ys => pure (y :: ys)

@[simp] theorem eval_forEach (o : ∀ q, A q) (xs : List α) (f : α → Prog Q A β) :
    (forEach xs f).eval o = xs.map fun x => (f x).eval o := by
  induction xs with
  | nil => rfl
  | cons x xs ih => simp only [forEach, eval_bind, eval_pure, ih, List.map_cons]

@[simp] theorem asked_forEach (o : ∀ q, A q) (xs : List α) (f : α → Prog Q A β) :
    (forEach xs f).asked o = xs.flatMap fun x => (f x).asked o := by
  induction xs with
  | nil => rfl
  | cons x xs ih =>
    simp only [forEach, asked_bind, ih, List.flatMap_cons]
    exact congrArg (_ ++ ·) (List.append_nil _)

theorem Always.forEach {asks : Q → Prop} {allowed : ∀ q, A q → Prop} {post : α → β → Prop}
    {xs : List α} {f : α → Prog Q A β} (h : ∀ x ∈ xs, (f x).Always asks allowed (post x)) :
    (forEach xs f).Always asks allowed (List.Forall₂ post xs) := by
  induction xs with
  | nil => exact List.Forall₂.nil
  | cons x xs ih =>
    refine (h x (by simp)).bind fun y hy => ?_
    exact (ih fun z hz => h z (by simp [hz])).bind fun ys hys => List.Forall₂.cons hy hys

theorem Always.forEach_mem {asks : Q → Prop} {allowed : ∀ q, A q → Prop} {post : β → Prop}
    {xs : List α} {f : α → Prog Q A β} (h : ∀ x ∈ xs, (f x).Always asks allowed post) :
    (Prog.forEach xs f).Always asks allowed fun ys => ∀ y ∈ ys, post y := by
  refine (Always.forEach h).mono fun ys hys => ?_
  induction hys with
  | nil => exact List.forall_mem_nil _
  | cons hy _ ih => exact List.forall_mem_cons.mpr ⟨hy, ih fun x hx => h x (by simp [hx])⟩

/-- Answers each question with a program of its own. -/
def interpret {Q' : Type} {A' : Q' → Type} (h : ∀ q, Prog Q' A' (A q)) : Prog Q A α → Prog Q' A' α
  | pure a => pure a
  | ask q next => h q >>= fun a => (next a).interpret h

section
variable {Q' : Type} {A' : Q' → Type} {h : ∀ q, Prog Q' A' (A q)}

@[simp] theorem eval_interpret (o : ∀ q, A' q) (p : Prog Q A α) :
    (p.interpret h).eval o = p.eval fun q => (h q).eval o := by
  induction p with
  | pure a => rfl
  | ask q next ih => rw [interpret, eval_bind, ih, eval_ask]

theorem Always.interpret {asks : Q → Prop} {allowed : ∀ q, A q → Prop} {asks' : Q' → Prop}
    {allowed' : ∀ q, A' q → Prop} {post : α → Prop} {p : Prog Q A α}
    (hp : p.Always asks allowed post)
    (hh : ∀ q, asks q → (h q).Always asks' allowed' (allowed q)) :
    (p.interpret h).Always asks' allowed' post := by
  induction p with
  | pure a => exact hp
  | ask q next ih => exact (hh q hp.1).bind fun a ha => ih a (hp.2 a ha)

end

/-- The events of a run: `exec q es r` says that answering `q` can leave the events `es`, with
answer `r`, or stop midway when `r` is `none`. -/
inductive Emits (exec : ∀ q, List ε → Option (A q) → Prop) :
    Prog Q A α → List ε → Option α → Prop where
  | pure (a : α) : Emits exec (pure a) [] (some a)
  | stopped {q : Q} {next : A q → Prog Q A α} {es : List ε} (h : exec q es none) :
      Emits exec (ask q next) es none
  | answered {q : Q} {next : A q → Prog Q A α} {a : A q} {es fs : List ε} {r : Option α}
      (h : exec q es (some a)) (hr : Emits exec (next a) fs r) : Emits exec (ask q next) (es ++ fs) r

theorem Emits.mono {exec exec' : ∀ q, List ε → Option (A q) → Prop}
    (h : ∀ q es r, exec q es r → exec' q es r) {p : Prog Q A α} {es : List ε} {r : Option α}
    (hr : p.Emits exec es r) : p.Emits exec' es r := by
  induction hr with
  | pure a => exact .pure a
  | stopped hq => exact .stopped (h _ _ _ hq)
  | answered hq _ ih => exact .answered (h _ _ _ hq) ih

theorem Always.emits {exec : ∀ q, List ε → Option (A q) → Prop} {good : ε → Prop}
    {asks : Q → Prop} {allowed : ∀ q, A q → Prop} {post : α → Prop}
    (hexec : ∀ q es r, asks q → exec q es r → (∀ e ∈ es, good e) ∧ ∀ a, r = some a → allowed q a)
    {p : Prog Q A α} (h : p.Always asks allowed post) {es : List ε} {r : Option α}
    (hr : p.Emits exec es r) : (∀ e ∈ es, good e) ∧ ∀ a, r = some a → post a := by
  induction hr with
  | pure a => exact ⟨by simp, fun b hb => Option.some.inj hb ▸ h⟩
  | stopped hq => exact ⟨(hexec _ _ _ h.1 hq).1, by simp⟩
  | answered hq _ ih =>
    obtain ⟨hes, ha⟩ := hexec _ _ _ h.1 hq
    obtain ⟨hfs, hpost⟩ := ih (h.2 _ (ha _ rfl))
    refine ⟨fun e he => ?_, hpost⟩
    rcases List.mem_append.mp he with he | he
    · exact hes e he
    · exact hfs e he

end Prog
end Interaction
