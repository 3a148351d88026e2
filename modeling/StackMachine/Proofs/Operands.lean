import StackMachine.Proofs.CallIsolation
import StackMachine.Proofs.Effects
/-!
# The operands of an instruction

Blocks remember how high the operand stack was, and unwinding cuts the stack back to that height.
That is only sound because an instruction does not reach below its operands, whether it ends well or
fails.  A few tables say what an instruction works on: how many operands it has (`operands`) and how
many of them it takes off the stack (`taken`), where it goes if it does not go on with the next
instruction (`branch?`), and how many values are in the place of the operands when it has completed
(`results`).  The number of operands may depend on the topmost value, and the number of results on
the branch.

A program is followed from its beginning to its end: it takes values off (`Takes`), it looks at
them, or it has nothing to do with the stack (`Neutral`), and in the end it pushes.  `Worked` is
what is then known of its result.  It combines what is left alone with the guarantee that too few
values are noticed before anything else goes wrong.  Each instruction has one case in
`perform_worked`; the main result is `touches_operands_only`.
-/

namespace StackMachine

/-! ## What instructions work on -/

namespace Instruction

/-- The number of values on the stack that the instruction takes or looks at.  Only at the end of a
finally body it depends on the topmost value, which is the marker. -/
def operands (top? : Option Value) : Instruction → Nat
  | popTop | dupTop | unary _ | storeName _ | storeGlobal _ | storeFast _ | storeDeref _
  | loadAttr _ | popJumpIfFalse _ | popJumpIfTrue _ | jumpIfFalseOrPop _ | jumpIfTrueOrPop _
  | getIter | forIter _ | returnValue | printItem => 1
  | rotTwo | binary _ | compare _ | storeAttr _ => 2
  | rotThree | storeMap | storeSubscript => 3
  | buildTuple n | buildList n => n
  | listAppend depth => depth + 1
  | raiseVarargs n => if n ≤ 2 then n else 0
  | makeFunction n => n + 1
  | makeClosure n => n + 2
  | callFunction positional keyword => 1 + positional + 2 * keyword
  | endFinally =>
    match top? with
    | some (.why .returning) | some (.why .continuing) => 2
    | some (.exceptionType _) => 3
    | _ => 1
  | buildMap _ | loadConst .. | loadName _ | loadGlobal _ | loadFast _ | loadClosure _ | loadDeref _
  | jumpForward _ | jumpAbsolute _ | setupLoop _ | setupExcept _ | setupFinally _ | popBlock
  | breakLoop | continueLoop _ | popExcept | printNewline => 0

/-- The place to which the instruction goes, unless it goes on with the next one. -/
def branch? (a : Activation) : Instruction → Option Nat
  | jumpForward target | jumpAbsolute target => some target
  | popJumpIfFalse target | jumpIfFalseOrPop target =>
    match a.frame.stack.back? with
    | some v => if v.truthy a.heap == false then some target else none
    | none => none
  | popJumpIfTrue target | jumpIfTrueOrPop target =>
    match a.frame.stack.back? with
    | some v => if v.truthy a.heap == true then some target else none
    | none => none
  | forIter exit =>
    match a.frame.stack.back? with
    | some (.iterator r) =>
      match Value.next? r a.heap with
      | .ok none _ => some exit
      | _ => none
    | _ => none
  | _ => none

/-- The number of values that the instruction takes off the stack.  An operand that it only looks at
stays there. -/
def taken (a : Activation) : Instruction → Nat
  | dupTop => 0
  | storeMap => 2
  | listAppend _ => 1
  | jumpIfFalseOrPop target => if ((jumpIfFalseOrPop target).branch? a).isSome then 0 else 1
  | jumpIfTrueOrPop target => if ((jumpIfTrueOrPop target).branch? a).isSome then 0 else 1
  | forIter exit => if ((forIter exit).branch? a).isSome then 1 else 0
  | i => i.operands a.frame.stack.back?

/-- The number of values that have come in the place of the operands when the instruction has
completed.  An instruction that only looks at an operand leaves it there. -/
def results (branches : Bool) : Instruction → Nat
  | unary _ | binary _ | compare _ | buildTuple _ | buildList _ | buildMap _ | storeMap
  | loadConst .. | loadName _ | loadGlobal _ | loadFast _ | loadClosure _ | loadDeref _ | loadAttr _
  | getIter | makeFunction _ | makeClosure _ | callFunction .. => 1
  | dupTop | rotTwo => 2
  | rotThree => 3
  | listAppend depth => depth
  | jumpIfFalseOrPop _ | jumpIfTrueOrPop _ => if branches then 1 else 0
  | forIter _ => if branches then 0 else 2
  | popTop | storeSubscript | storeName _ | storeGlobal _ | storeFast _ | storeDeref _ | storeAttr _
  | jumpForward _ | jumpAbsolute _ | popJumpIfFalse _ | popJumpIfTrue _ | setupLoop _
  | setupExcept _ | setupFinally _ | popBlock | breakLoop | continueLoop _ | popExcept | endFinally
  | raiseVarargs _ | returnValue | printItem | printNewline => 0

/-- Whether the instruction goes on with the next one unless it fails, and removes no block with
what the block has on the stack. -/
def isPlain : Instruction → Bool
  | breakLoop | continueLoop _ | endFinally | raiseVarargs _ | returnValue | callFunction ..
  | popExcept => false
  | _ => true

/-- The number of values in the place of the operands, however the instruction has ended.  There are
none where it ends in a signal or leaves it to the machine to enter a function. -/
def left (i : Instruction) (a : Activation) : Outcome → Nat
  | .next => i.results (i.branch? a).isSome
  | .signal _ | .enter .. => 0

/-- What is taken has been an operand.  There is a case for each instruction that only looks at
something. -/
lemma taken_le_operands (i : Instruction) (a : Activation) :
    i.taken a ≤ i.operands a.frame.stack.back? := by
  cases i
  case dupTop => exact Nat.zero_le 1
  case storeMap => exact Nat.le_succ 2
  case listAppend depth => exact Nat.le_add_left 1 depth
  case jumpIfFalseOrPop | jumpIfTrueOrPop | forIter =>
    show (if _ then _ else _) ≤ 1
    split <;> decide
  all_goals exact Nat.le_refl _

end Instruction

/-- The errors of an instruction that has not found the operands that it needs, or not of the kind
that it needs. -/
def FatalError.isOfOperands : FatalError → Bool
  | malformedCode .. | stackUnderflow .. => true
  | _ => false

/-- A failure that an instruction can end in as far as its operands are concerned. -/
def Failure.OfOperands : Failure → Prop
  | fault _ => True
  | fatal e => e.isOfOperands

/-- The lowest `k` values of the operand stack are the same ones in the same order. -/
def Frame.SameBelow (k : Nat) (f g : Frame) : Prop := g.stack.take k = f.stack.take k

namespace Frame.SameBelow

variable {f g h : Frame} {j k : Nat}

lemma refl (k : Nat) (f : Frame) : f.SameBelow k f := rfl

lemma trans (hfg : f.SameBelow k g) (hgh : g.SameBelow k h) : f.SameBelow k h := Eq.trans hgh hfg

lemma mono (hfg : f.SameBelow k g) (hle : j ≤ k) : f.SameBelow j g := by
  have hcut := congrArg (·.take j) hfg
  simpa [SameBelow, Nat.min_eq_left hle] using hcut

lemma of_eq (hfg : g.stack = f.stack) (k : Nat) : f.SameBelow k g := by
  show g.stack.take k = f.stack.take k
  rw [hfg]

/-- A stack on which nothing is left above some values of an earlier one. -/
lemma eq_take (hfg : f.SameBelow k g) (hsize : g.stack.size = k) : g.stack = f.stack.take k := by
  have hall : g.stack.take k = g.stack := by
    rw [← hsize]
    simp
  exact hall.symm.trans hfg

end Frame.SameBelow

/-- The two activations have the same operand stack. -/
def Activation.SameStack (a b : Activation) : Prop := b.frame.stack = a.frame.stack

instance : IsPreorder Activation Activation.SameStack where
  refl _ := rfl
  trans _ _ _ hab hbc := Eq.trans hbc hab

/-- What is taken off the top is not below. -/
lemma Activation.sameBelow_dropTop (n : Nat) (a : Activation) :
    a.frame.SameBelow (a.frame.stack.size - n) (a.dropTop n).frame := by
  simp [Frame.SameBelow, dropTop]

namespace Exec

variable {α β : Type} {a b : Activation} {m n t : Nat} {gives : α → Nat}

/-! ## Programs that leave the stack alone -/

/-- The program neither changes the operand stack nor needs anything on it. -/
abbrev Neutral (x : Exec α) : Prop := Keeps Activation.SameStack Failure.OfOperands x

@[grind ←] lemma abort_neutral {e : FatalError} (he : e.isOfOperands) :
    Neutral (abort e : Exec α) := keeps_throw he

@[grind ←] lemma malformed_neutral (d : Defect) : Neutral (malformed d : Exec α) :=
  keeps_bind keeps_get fun _ => abort_neutral rfl

@[grind ←] lemma raise_neutral (c : Cause) : Neutral (raise c : Exec α) := fun _ => ⟨rfl, trivial⟩

@[grind ←] lemma onHeap_neutral (x : HeapM α) : Neutral (onHeap x) := by
  intro a
  simp only [onHeap]
  cases x a.heap with
  | ok v h => exact rfl
  | error c h => exact ⟨rfl, trivial⟩

@[grind ←] lemma modifyOutput_neutral (f : Output → Output) : Neutral (modifyOutput f) :=
  fun _ => rfl

@[grind ←] lemma storeLocal_neutral (name : String) (v : Value) : Neutral (storeLocal name v) :=
  fun _ => rfl

@[grind ←] lemma storeGlobal_neutral (name : String) (v : Value) : Neutral (storeGlobal name v) :=
  fun _ => rfl

@[grind ←] lemma jump_neutral (target : Nat) : Neutral (jump target) := fun _ => rfl

@[grind ←] lemma pushBlock_neutral (kind : BlockKind) (handler : Nat) :
    Neutral (pushBlock kind handler) := fun _ => rfl

lemma popBlock_neutral : Neutral popBlock := by
  refine keeps_bind keeps_get fun a => ?_
  cases a.frame.blocks with
  | nil => exact malformed_neutral .noBlock
  | cons b rest =>
    have hremove : Neutral (modifyFrame fun f => { f with blocks := rest }) := fun _ => rfl
    exact keeps_bind hremove fun _ => keeps_pure b

@[grind ←] lemma loadLocal_neutral (name : String) : Neutral (loadLocal name) := by
  unfold loadLocal
  grind

@[grind ←] lemma loadName_neutral (name : String) : Neutral (loadName name) := by
  unfold loadName
  grind

@[grind ←] lemma loadGlobal_neutral (name : String) : Neutral (loadGlobal name) := by
  unfold loadGlobal
  grind

@[grind ←] lemma cell_neutral (slot : Nat) : Neutral (cell slot) := by
  unfold cell
  grind

@[grind ←] lemma loadDeref_neutral (slot : Nat) : Neutral (loadDeref slot) := by
  unfold loadDeref
  grind

@[grind ←] lemma storeDeref_neutral (slot : Nat) (v : Value) : Neutral (storeDeref slot v) :=
  keeps_bind (cell_neutral slot) fun _ _ => rfl

@[grind ←] lemma keywordArguments_neutral (vs : List Value) : Neutral (keywordArguments vs) := by
  fun_induction keywordArguments vs <;> grind

/-! ## Results -/

/-- How a program may end that works on the top `need` values, takes the top `taken` of them off,
and completes with `gives` values in the place of the `need` ones.  Below what it takes nothing
changes, also when it fails.  Where there are fewer values than it needs the program neither
completes nor raises a fault. -/
def Worked (need taken : Nat) (gives : α → Nat) (a : Activation) :
    EStateM.Result Failure Activation α → Prop
  | .ok v b =>
    need ≤ a.frame.stack.size ∧ a.frame.SameBelow (a.frame.stack.size - taken) b.frame ∧
      b.frame.stack.size + need = a.frame.stack.size + gives v
  | .error e b =>
    a.frame.SameBelow (a.frame.stack.size - taken) b.frame ∧ e.OfOperands ∧
      (need ≤ a.frame.stack.size ∨ e.isFatal)

/-- The program takes `n` values off the stack, and does nothing else to it.  It may refuse them as
malformed, but it raises no fault. -/
def Takes (n : Nat) (x : Exec α) : Prop :=
  ∀ a, match x a with
    | .ok _ b => n ≤ a.frame.stack.size ∧ b = a.dropTop n
    | .error e b =>
      a.frame.SameBelow (a.frame.stack.size - n) b.frame ∧ e.OfOperands ∧ e.isFatal

lemma pop_takes : Takes 1 pop := by
  intro a
  by_cases hempty : a.frame.stack = #[]
  · have hpop : pop a = .error (.fatal (.stackUnderflow 1 0)) a := by simp [pop, hempty]
    rw [hpop]
    exact ⟨.refl _ _, rfl, rfl⟩
  · obtain ⟨stack, v, hstack⟩ := Array.exists_push_of_ne_empty hempty
    have hpop := pop_apply hstack
    rw [hpop]
    exact pop_ok hpop

lemma popN_takes (n : Nat) : Takes n (popN n) := by
  intro a
  by_cases hn : n ≤ a.frame.stack.size
  · rw [popN_apply hn]
    exact ⟨hn, rfl⟩
  · rw [popN_underflow (Nat.lt_of_not_le hn)]
    exact ⟨.refl _ _, rfl, rfl⟩

/-- The program looks at values that it has, and may refuse them as malformed. -/
def Checks (x : Exec α) : Prop :=
  ∀ a, match x a with
    | .ok _ b => b = a
    | .error e b => b = a ∧ e.OfOperands ∧ e.isFatal

lemma malformed_checks (d : Defect) : Checks (malformed d : Exec α) := fun _ => ⟨rfl, rfl, rfl⟩

lemma cellsOf_checks (vs : List Value) : Checks (cellsOf vs) := by
  fun_induction cellsOf vs with
  | case1 => exact fun _ => rfl
  | case2 c rest ih =>
    intro a
    have hrest := ih a
    rw [bind_apply]
    cases h : cellsOf rest a with
    | ok cells b =>
      rw [h] at hrest
      exact hrest
    | error e b =>
      rw [h] at hrest
      exact hrest
  | case3 => exact malformed_checks _

/-- Values that have been taken off may be refused. -/
lemma Takes.check {x : Exec α} {f : α → Exec β} (hx : Takes n x) (hf : ∀ v, Checks (f v)) :
    Takes n (x >>= f) := by
  intro a
  have hxa := hx a
  rw [bind_apply]
  cases h : x a with
  | error e b => simpa only [h] using hxa
  | ok v b =>
    simp only [h] at hxa ⊢
    obtain ⟨hn, rfl⟩ := hxa
    have hfb := hf v (a.dropTop n)
    cases h' : f v (a.dropTop n) with
    | ok w c =>
      rw [h'] at hfb
      exact ⟨hn, hfb⟩
    | error e c =>
      rw [h'] at hfb
      obtain ⟨rfl, he⟩ := hfb
      exact ⟨a.sameBelow_dropTop n, he⟩

lemma popCode_takes : Takes 1 popCode := by
  apply pop_takes.check
  intro v
  cases v
  case code object => exact fun _ => rfl
  all_goals exact malformed_checks _

lemma popCells_takes : Takes 1 popCells := by
  apply pop_takes.check
  intro v
  cases v
  case tuple id items => exact cellsOf_checks items
  all_goals exact malformed_checks _

/-! ## Programs made of programs -/

lemma Neutral.worked {x : Exec α} (hx : Neutral x) (a : Activation) :
    Worked 0 0 (fun _ => 0) a (x a) := by
  have hxa := hx a
  cases h : x a with
  | ok v b =>
    rw [h] at hxa
    exact ⟨Nat.zero_le _, Frame.SameBelow.of_eq hxa _, by rw [hxa]⟩
  | error e b =>
    rw [h] at hxa
    exact ⟨Frame.SameBelow.of_eq hxa.1 _, hxa.2, .inl (Nat.zero_le _)⟩

lemma push_worked (v : Value) (a : Activation) : Worked 0 0 (fun _ => 1) a (push v a) := by
  rw [push_apply]
  refine ⟨Nat.zero_le _, ?_, ?_⟩
  · show (a.frame.stack.push v).take _ = a.frame.stack.take _
    simp
  · exact Array.size_push v

lemma pushAll_worked (vs : List Value) (a : Activation) :
    Worked 0 0 (fun _ => vs.length) a (pushAll vs a) := by
  rw [pushAll_apply]
  refine ⟨Nat.zero_le _, ?_, ?_⟩
  · show (a.frame.stack ++ vs.toArray).take _ = a.frame.stack.take _
    simp
  · show (a.frame.stack ++ vs.toArray).size + 0 = _
    simp

/-- A program that works on fewer values leaves the others, if there are so many. -/
lemma Worked.weaken {r : EStateM.Result Failure Activation α} (h : Worked m t gives a r)
    (hle : m ≤ n) (hn : n ≤ a.frame.stack.size) :
    Worked n t (fun v => (n - m) + gives v) a r := by
  cases r with
  | ok v b =>
    obtain ⟨-, hbelow, hsize⟩ := h
    refine ⟨hn, hbelow, ?_⟩
    show b.frame.stack.size + n = a.frame.stack.size + ((n - m) + gives v)
    omega
  | error e b => exact ⟨h.1, h.2.1, .inl hn⟩

lemma pure_worked (v : α) (a : Activation) : Worked 0 0 (fun _ => 0) a ((pure v : Exec α) a) :=
  Neutral.worked (keeps_pure v) a

/-- What a program works on behind one that takes values off. -/
lemma Takes.bind {gives : β → Nat} {x : Exec α} {f : α → Exec β} (hx : Takes m x)
    (hf : ∀ v b, x a = .ok v b → Worked n t gives b (f v b)) :
    Worked (m + n) (m + t) gives a ((x >>= f) a) := by
  have hxa := hx a
  rw [bind_apply]
  cases h : x a with
  | error e b =>
    rw [h] at hxa
    exact ⟨hxa.1.mono (by omega), hxa.2.1, .inr hxa.2.2⟩
  | ok v b =>
    rw [h] at hxa
    obtain ⟨hm, rfl⟩ := hxa
    have hbelow := a.sameBelow_dropTop m
    have hfb := hf v _ h
    show Worked (m + n) (m + t) gives a (f v (a.dropTop m))
    cases h' : f v (a.dropTop m) with
    | ok w c =>
      rw [h'] at hfb
      obtain ⟨hn, hbelow', hsize⟩ := hfb
      rw [Activation.dropTop_height] at hn hbelow' hsize
      refine ⟨by omega, ?_, by omega⟩
      exact (hbelow.mono (by omega)).trans (hbelow'.mono (by omega))
    | error e c =>
      rw [h'] at hfb
      obtain ⟨hbelow', he, hn⟩ := hfb
      rw [Activation.dropTop_height] at hbelow' hn
      refine ⟨(hbelow.mono (by omega)).trans (hbelow'.mono (by omega)), he, ?_⟩
      exact hn.imp_left fun hn => by omega

/-- What a program works on behind one that leaves the stack alone. -/
lemma Neutral.bind {gives : β → Nat} {x : Exec α} {f : α → Exec β} (hx : Neutral x)
    (hn : n ≤ a.frame.stack.size)
    (hf : ∀ v b, x a = .ok v b → a.SameStack b → Worked n t gives b (f v b)) :
    Worked n t gives a ((x >>= f) a) := by
  have hxa := hx a
  rw [bind_apply]
  cases h : x a with
  | error e b =>
    rw [h] at hxa
    exact ⟨Frame.SameBelow.of_eq hxa.1 _, hxa.2, .inl hn⟩
  | ok v b =>
    rw [h] at hxa
    have hfb := hf v b h hxa
    show Worked n t gives a (f v b)
    cases h' : f v b with
    | ok w c =>
      rw [h'] at hfb
      obtain ⟨-, hbelow, hsize⟩ := hfb
      rw [hxa] at hbelow hsize
      exact ⟨hn, (Frame.SameBelow.of_eq hxa _).trans hbelow, hsize⟩
    | error e c =>
      rw [h'] at hfb
      obtain ⟨hbelow, he, -⟩ := hfb
      rw [hxa] at hbelow
      exact ⟨(Frame.SameBelow.of_eq hxa _).trans hbelow, he, .inl hn⟩

lemma peek_ok {v : Value} (h : peek 0 a = .ok v b) : a = b ∧ b.frame.stack.back? = some v := by
  unfold peek at h
  simp only [bind_apply, get_apply] at h
  split at h
  · cases h
    refine ⟨rfl, ?_⟩
    rw [Array.back?_eq_getElem?]
    exact Array.getElem?_eq_getElem _
  · cases h

/-- The value that is looked at is there, and those above it as well. -/
lemma peek_bind {gives : β → Nat} {d : Nat} {f : Value → Exec β}
    (hf : ∀ v, d < a.frame.stack.size →
      a.frame.stack[a.frame.stack.size - 1 - d]? = some v →
      Worked (d + 1) t gives a (f v a)) :
    Worked (d + 1) t gives a ((peek d >>= f) a) := by
  by_cases hlt : d < a.frame.stack.size
  · have hat : a.frame.stack.size - 1 - d < a.frame.stack.size := by omega
    have hpeek : peek d a = .ok a.frame.stack[a.frame.stack.size - 1 - d] a := by
      simp [peek, hlt]
    rw [bind_apply, hpeek]
    exact hf _ hlt (Array.getElem?_eq_getElem hat)
  · have hpeek : peek d a =
        .error (.fatal (.stackUnderflow (d + 1) a.frame.stack.size)) a := by
      simp [peek, hlt]
    rw [bind_apply, hpeek]
    exact ⟨.refl _ _, rfl, .inr rfl⟩

lemma malformed_worked (n t : Nat) (gives : α → Nat) (d : Defect) (a : Activation) :
    Worked n t gives a (malformed d a) := ⟨.refl _ _, rfl, .inr rfl⟩

lemma raise_worked (hn : n ≤ a.frame.stack.size) (t : Nat) (gives : α → Nat) (c : Cause) :
    Worked n t gives a (raise c a) := ⟨rfl, trivial, .inl hn⟩

/-- A value that is found without the stack is pushed. -/
lemma Neutral.push {x : Exec α} (hx : Neutral x) (g : α → Value) (a : Activation) :
    Worked 0 0 (fun _ => 1) a ((x >>= fun v => Exec.push (g v)) a) :=
  hx.bind (Nat.zero_le _) fun v b _ _ => push_worked (g v) b

/-- Values are taken off and used. -/
lemma Takes.then_use {x : Exec α} (hx : Takes n x) {f : α → Exec β} (hf : ∀ v, Neutral (f v))
    (a : Activation) : Worked n n (fun _ => 0) a ((x >>= f) a) :=
  Takes.bind (m := n) (n := 0) (t := 0) hx fun v b _ => (hf v).worked b

/-- Values are taken off, and the value that is found by them is pushed. -/
lemma Takes.then_push {x : Exec α} (hx : Takes n x) {f : α → Exec β} (hf : ∀ v, Neutral (f v))
    (g : β → Value) (a : Activation) :
    Worked n n (fun _ => 1) a ((x >>= fun v => f v >>= fun w => push (g w)) a) :=
  Takes.bind (m := n) (n := 0) (t := 0) hx fun v b _ => (hf v).push g b

/-! ## Instructions -/

lemma makeFunction_worked (code : CodeObject) (defaults : List Value) (closure : List (Ref .cell))
    (a : Activation) : Worked 0 0 (fun _ => 1) a (makeFunction code defaults closure a) := by
  refine Neutral.bind keeps_get (Nat.zero_le _) fun a' b _ _ => ?_
  cases h : Function.make code defaults a'.frame.globals closure with
  | error e =>
    have he : e.isOfOperands := by
      unfold Function.make at h
      split at h
      · cases h
        rfl
      · cases h
    refine ⟨.refl _ _, he, .inr rfl⟩
  | ok allocate => exact (onHeap_neutral _).push Value.function b

lemma jump_worked (target : Nat) (a : Activation) :
    Worked 0 0 (fun _ => 0) a (jump target a) := (jump_neutral target).worked a

lemma popJumpIf_worked (wanted : Bool) (target : Nat) (a : Activation) :
    Worked 1 1 (fun _ => 0) a (popJumpIf wanted target a) := by
  apply pop_takes.then_use
  intro v
  refine keeps_bind keeps_get fun b => ?_
  unfold jumpIf
  split
  · exact jump_neutral target
  · exact keeps_pure ()

lemma onHeap_ok {x : HeapM α} {v : α} (h : onHeap x a = .ok v b) :
    x a.heap = .ok v b.heap ∧ b.frame = a.frame := by
  simp only [onHeap] at h
  split at h
  · next hx =>
    cases h
    exact ⟨hx, rfl⟩
  · cases h

lemma forIter_worked (exit : Nat) (a : Activation) :
    Worked 1 (if (Instruction.branch? a (.forIter exit)).isSome then 1 else 0)
      (fun _ => if (Instruction.branch? a (.forIter exit)).isSome then 0 else 2) a
      (perform (.forIter exit) a) := by
  apply peek_bind (d := 0)
  intro v hlt hv
  have hback : a.frame.stack.back? = some v := by
    rw [Array.back?_eq_getElem?]
    exact hv
  cases v
  case iterator r =>
    refine Neutral.bind (onHeap_neutral (Value.next? r)) hlt fun next b hnext hsame => ?_
    obtain ⟨hnext', -⟩ := onHeap_ok hnext
    cases next with
    | some w =>
      have hbranch : Instruction.branch? a (.forIter exit) = none := by
        simp only [Instruction.branch?, hback, hnext']
      rw [hbranch]
      exact (push_worked w b).weaken (Nat.zero_le 1) (by rw [hsame]; exact hlt)
    | none =>
      have hbranch : Instruction.branch? a (.forIter exit) = some exit := by
        simp only [Instruction.branch?, hback, hnext']
      rw [hbranch]
      exact pop_takes.then_use (fun _ => jump_neutral exit) b
  all_goals exact raise_worked hlt _ _ _

/-- The value that is kept is the one of the branch. -/
lemma jumpIfOrPop_worked {i : Instruction} (wanted : Bool) (target : Nat) (a : Activation)
    (hbranch : i.branch? a = match a.frame.stack.back? with
      | some v => if v.truthy a.heap == wanted then some target else none
      | none => none) :
    Worked 1 (if (i.branch? a).isSome then 0 else 1)
      (fun _ => if (i.branch? a).isSome then 1 else 0) a (jumpIfOrPop wanted target a) := by
  apply peek_bind (d := 0)
  intro v hlt hv
  have hback : a.frame.stack.back? = some v := by
    rw [Array.back?_eq_getElem?]
    exact hv
  rw [hback] at hbranch
  show Worked 1 _ _ a ((if v.truthy a.heap == wanted then jump target else do let _ ← pop) a)
  rw [hbranch]
  dsimp only
  split
  · exact (jump_worked target a).weaken (Nat.zero_le 1) hlt
  · exact pop_takes.then_use (fun _ => keeps_pure ()) a

lemma listAppend_worked (depth : Nat) (a : Activation) :
    Worked (1 + depth) 1 (fun _ => depth) a (perform (.listAppend depth) a) := by
  refine Takes.bind (m := 1) (n := depth) (t := 0) pop_takes fun v b _ => ?_
  cases depth with
  | zero => exact malformed_worked _ _ _ _ b
  | succ depth =>
    refine peek_bind (d := depth) fun target hlt _ => ?_
    cases target
    case list r =>
      exact ((onHeap_neutral _).worked b).weaken (Nat.zero_le (depth + 1)) hlt
    all_goals exact malformed_worked _ _ _ _ b

lemma perform_worked {i : Instruction} (hi : i.isPlain = true) (a : Activation) :
    Worked (i.operands a.frame.stack.back?) (i.taken a)
      (fun _ => i.results (i.branch? a).isSome) a (perform i a) := by
  cases i
  case popTop => exact pop_takes.then_use (fun _ => keeps_pure ()) a
  case rotTwo =>
    exact Takes.bind (m := 1) (n := 1) (t := 1) pop_takes fun x _ _ =>
      Takes.bind (m := 1) (n := 0) (t := 0) pop_takes fun y b _ => pushAll_worked [x, y] b
  case rotThree =>
    exact Takes.bind (m := 1) (n := 2) (t := 2) pop_takes fun x _ _ =>
      Takes.bind (m := 1) (n := 1) (t := 1) pop_takes fun y _ _ =>
      Takes.bind (m := 1) (n := 0) (t := 0) pop_takes fun z b _ => pushAll_worked [x, z, y] b
  case dupTop =>
    exact peek_bind (d := 0) fun v hlt _ => (push_worked v a).weaken (Nat.zero_le 1) hlt
  case unary op => exact pop_takes.then_push (fun _ => onHeap_neutral _) id a
  case binary op =>
    exact Takes.bind (m := 1) (n := 1) (t := 1) pop_takes fun x b _ =>
      pop_takes.then_push (fun _ => onHeap_neutral _) id b
  case compare op =>
    exact Takes.bind (m := 1) (n := 1) (t := 1) pop_takes fun x b _ =>
      pop_takes.then_push (fun _ => onHeap_neutral _) Value.bool b
  case buildTuple n | buildList n =>
    exact (popN_takes n).then_push (fun _ => onHeap_neutral _) id a
  case buildMap => exact (onHeap_neutral _).push id a
  case storeMap =>
    refine Takes.bind (m := 1) (n := 2) (t := 1) pop_takes fun key _ _ =>
      Takes.bind (m := 1) (n := 1) (t := 0) pop_takes fun v b _ =>
      peek_bind (d := 0) fun target hlt _ => ?_
    cases target
    case map r => exact ((onHeap_neutral _).worked b).weaken (Nat.zero_le 1) hlt
    all_goals exact malformed_worked _ _ _ _ b
  case storeSubscript =>
    exact Takes.bind (m := 1) (n := 2) (t := 2) pop_takes fun key _ _ =>
      Takes.bind (m := 1) (n := 1) (t := 1) pop_takes fun container b _ =>
      pop_takes.then_use (fun v => onHeap_neutral _) b
  case listAppend depth =>
    have h := listAppend_worked depth a
    rw [Nat.add_comm] at h
    exact h
  case loadConst place constant =>
    exact Neutral.bind keeps_get (Nat.zero_le _) fun _ b _ _ => (onHeap_neutral _).push id b
  case loadName name => exact (loadName_neutral name).push id a
  case storeName name | storeFast name => exact pop_takes.then_use (storeLocal_neutral name) a
  case loadGlobal name => exact (loadGlobal_neutral name).push id a
  case storeGlobal name => exact pop_takes.then_use (storeGlobal_neutral name) a
  case loadFast name => exact (loadLocal_neutral name).push id a
  case loadClosure slot => exact (cell_neutral slot).push Value.cell a
  case loadDeref slot => exact (loadDeref_neutral slot).push id a
  case storeDeref slot => exact pop_takes.then_use (storeDeref_neutral slot) a
  case loadAttr name => exact pop_takes.then_push (fun _ => onHeap_neutral _) id a
  case storeAttr name =>
    exact Takes.bind (m := 1) (n := 1) (t := 1) pop_takes fun target b _ =>
      pop_takes.then_use (fun v => onHeap_neutral _) b
  case jumpForward target | jumpAbsolute target => exact jump_worked target a
  case popJumpIfFalse target => exact popJumpIf_worked false target a
  case popJumpIfTrue target => exact popJumpIf_worked true target a
  case jumpIfFalseOrPop target => exact jumpIfOrPop_worked false target a rfl
  case jumpIfTrueOrPop target => exact jumpIfOrPop_worked true target a rfl
  case getIter => exact pop_takes.then_push (fun _ => onHeap_neutral _) id a
  case forIter exit => exact forIter_worked exit a
  case setupLoop target | setupExcept target | setupFinally target =>
    exact (pushBlock_neutral _ target).worked a
  case popBlock => exact Neutral.worked (keeps_bind popBlock_neutral fun _ => keeps_pure ()) a
  case makeFunction n =>
    show Worked (n + 1) (n + 1) _ a _
    rw [Nat.add_comm]
    exact Takes.bind (m := 1) (n := n) (t := n) popCode_takes fun code _ _ =>
      Takes.bind (m := n) (n := 0) (t := 0) (popN_takes n) fun defaults b _ =>
      makeFunction_worked code defaults [] b
  case makeClosure n =>
    have hneed : n + 2 = 1 + (1 + (n + 0)) := by omega
    show Worked (n + 2) (n + 2) _ a _
    rw [hneed]
    exact Takes.bind popCode_takes fun code _ _ => Takes.bind popCells_takes fun closure _ _ =>
      Takes.bind (popN_takes n) fun defaults b _ => makeFunction_worked code defaults closure b
  case printItem =>
    exact pop_takes.then_use (fun v => keeps_bind keeps_get fun b => modifyOutput_neutral _) a
  case printNewline => exact (modifyOutput_neutral _).worked a
  all_goals cases hi

/-! ### Signals and calls -/

/-- The number of operands may depend on the value that is taken off first. -/
lemma pop_bind {gives : β → Nat} {need : Nat} {f : Value → Exec β}
    (hf : ∀ v, a.frame.stack.back? = some v →
      ∃ n, need = 1 + n ∧ ∀ b, Worked n n gives b (f v b)) :
    Worked need need gives a ((pop >>= f) a) := by
  by_cases hempty : a.frame.stack = #[]
  · have hpop : pop a = .error (.fatal (.stackUnderflow 1 0)) a := by simp [pop, hempty]
    rw [bind_apply, hpop]
    exact ⟨.refl _ _, rfl, .inr rfl⟩
  · obtain ⟨stack, v, hstack⟩ := Array.exists_push_of_ne_empty hempty
    have hback : a.frame.stack.back? = some v := by rw [hstack, Array.back?_push]
    obtain ⟨n, rfl, hn⟩ := hf v hback
    refine pop_takes.bind fun w b hw => ?_
    cases (pop_apply hstack).symm.trans hw
    exact hn _

/-- The marker says how many values there are below it. -/
lemma endFinally_worked (a : Activation) :
    Worked (Instruction.operands a.frame.stack.back? .endFinally)
      (Instruction.operands a.frame.stack.back? .endFinally) (fun _ => 0) a (endFinally a) := by
  apply pop_bind
  intro marker hmarker
  rw [hmarker]
  cases marker
  case none => exact ⟨0, rfl, fun b => pure_worked _ b⟩
  case exceptionType kind =>
    exact ⟨2, rfl, fun b => Takes.bind (m := 1) (n := 1) (t := 1) pop_takes fun v c _ =>
      pop_takes.then_use (fun trace => keeps_pure _) c⟩
  case why reason =>
    cases reason with
    | returning => exact ⟨1, rfl, fun b => pop_takes.then_use (fun v => keeps_pure _) b⟩
    | breaking => exact ⟨0, rfl, fun b => pure_worked _ b⟩
    | continuing =>
      refine ⟨1, rfl, fun b => pop_takes.then_use (fun payload => ?_) b⟩
      refine keeps_bind keeps_get fun c => ?_
      split
      · split
        · exact keeps_pure _
        · exact malformed_neutral _
      · exact malformed_neutral _
  all_goals exact ⟨0, rfl, fun b => malformed_worked _ _ _ _ b⟩

lemma raised_worked (count : Nat) (a : Activation) :
    Worked (Instruction.operands a.frame.stack.back? (.raiseVarargs count))
      (Instruction.operands a.frame.stack.back? (.raiseVarargs count)) (fun _ => 0) a
      (raised count a) := by
  match count with
  | 0 =>
    refine Neutral.worked (keeps_bind keeps_get fun b => ?_) a
    cases b.lastFault with
    | none => exact raise_neutral .nothingToReraise
    | some F => exact keeps_pure F
  | 1 => exact pop_takes.then_use (fun v => onHeap_neutral _) a
  | 2 =>
    refine Takes.bind (m := 1) (n := 1) (t := 1) pop_takes fun v b _ =>
      pop_takes.then_use (fun kind => ?_) b
    cases kind
    case exceptionType kind => exact keeps_pure _
    all_goals exact raise_neutral _
  | count + 3 =>
    have hneed : Instruction.operands a.frame.stack.back? (.raiseVarargs (count + 3)) = 0 := by
      simp [Instruction.operands]
    rw [hneed]
    exact malformed_worked 0 0 _ _ a

lemma invoke_worked (callee : Value) (args : List Value) (keywords : List (String × Value))
    (a : Activation) : Worked 0 0 (fun _ => 1) a (invoke callee args keywords a) := by
  refine Neutral.bind (onHeap_neutral _) (Nat.zero_le _) fun reply b _ _ => ?_
  cases reply.line? with
  | none => exact push_worked reply.value b
  | some texts =>
    exact Neutral.bind (modifyOutput_neutral _) (Nat.zero_le _) fun _ c _ _ =>
      push_worked reply.value c

/-- What is worked on does not change when only the outcome is still to be named. -/
lemma Worked.andThen {gives : β → Nat} {x : Exec α} {f : α → Exec β}
    (h : Worked n t (fun _ => m) a (x a))
    (hf : ∀ v b, match f v b with
      | .ok w c => c = b ∧ gives w = m
      | .error e c => c = b ∧ e.OfOperands) : Worked n t gives a ((x >>= f) a) := by
  rw [bind_apply]
  cases hx : x a with
  | error e b =>
    rw [hx] at h
    exact h
  | ok v b =>
    rw [hx] at h
    obtain ⟨hn, hbelow, hsize⟩ := h
    have hfb := hf v b
    show Worked n t gives a (f v b)
    cases hw : f v b with
    | ok w c =>
      rw [hw] at hfb
      obtain ⟨rfl, hgives⟩ := hfb
      exact ⟨hn, hbelow, by rw [hgives]; exact hsize⟩
    | error e c =>
      rw [hw] at hfb
      obtain ⟨rfl, he⟩ := hfb
      exact ⟨hbelow, he, .inl hn⟩

lemma callFunction_worked (positional keyword : Nat) (a : Activation) :
    Worked (1 + positional + 2 * keyword) (1 + positional + 2 * keyword)
      (Instruction.left (.callFunction positional keyword) a) a
      (execute (.callFunction positional keyword) a) := by
  have hneed : 1 + positional + 2 * keyword = 2 * keyword + (positional + (1 + 0)) := by omega
  rw [hneed]
  refine Takes.bind (popN_takes _) fun pairs _ _ => Takes.bind (popN_takes _) fun args _ _ =>
    pop_takes.bind fun callee b _ =>
    (keywordArguments_neutral pairs).bind (Nat.zero_le _) fun keywords c _ _ => ?_
  cases callee
  case function r _ => exact pure_worked (Outcome.enter r args keywords) c
  all_goals exact (invoke_worked _ args keywords c).andThen fun _ _ => ⟨rfl, rfl⟩

/-- **Every instruction but the end of a handler works on its operands.** -/
lemma execute_worked {i : Instruction} (hi : i ≠ .popExcept) (a : Activation) :
    Worked (i.operands a.frame.stack.back?) (i.taken a) (i.left a) a (execute i a) := by
  cases i
  case popExcept => exact absurd rfl hi
  case breakLoop => exact pure_worked (Outcome.signal .breaking) a
  case continueLoop target => exact pure_worked (Outcome.signal (.continuing target)) a
  case returnValue =>
    exact Takes.bind (m := 1) (n := 0) (t := 0) pop_takes fun v b _ =>
      pure_worked (Outcome.signal (.returning v)) b
  case endFinally =>
    refine (endFinally_worked a).andThen fun s? b => ?_
    cases s? with
    | none => exact ⟨rfl, rfl⟩
    | some s => exact ⟨rfl, rfl⟩
  case raiseVarargs count => exact (raised_worked count a).andThen fun F b => ⟨rfl, trivial⟩
  case callFunction positional keyword => exact callFunction_worked positional keyword a
  all_goals exact (perform_worked rfl a).andThen fun _ _ => ⟨rfl, rfl⟩

/-! ### Branches -/

/-- Instructions that name no place go on with the next one. -/
lemma execute_ip_of_target?_eq_none {i : Instruction} {o : Outcome} (hi : i.target? = none)
    (h : execute i a = .ok o b) : b.frame.ip = a.frame.ip := by
  have hplace : ∀ target, i.target? = some target → False := by
    intro target htarget
    rw [hi] at htarget
    cases htarget
  have hacts := execute_acting hplace (fun s hs => hs) a
  rw [h] at hacts
  clear h
  induction hacts with
  | refl => rfl
  | tail _ heffect ih =>
    cases heffect with
    | jump h => exact h.elim
    | fetch h => exact h.elim
    | _ => exact ih

/-- There is a value to decide on, and it decides where to go. -/
lemma popJumpIf_ip {wanted : Bool} {target : Nat} (h : popJumpIf wanted target a = .ok () b) :
    ∃ v, a.frame.stack.back? = some v ∧
      b.frame.ip = if v.truthy a.heap == wanted then target else a.frame.ip := by
  have hworked := popJumpIf_worked wanted target a
  rw [h] at hworked
  obtain ⟨stack, v, hstack⟩ := Array.exists_push_of_ne_empty (Array.size_pos_iff.1 hworked.1)
  refine ⟨v, by rw [hstack, Array.back?_push], ?_⟩
  simp only [popJumpIf, jumpIf, bind_apply, pop_apply hstack, get_apply] at h
  split at h
  · next htaken =>
    cases h
    rw [if_pos htaken]
  · next hpassed =>
    cases h
    rw [if_neg hpassed]

lemma jumpIfOrPop_ip {wanted : Bool} {target : Nat} (h : jumpIfOrPop wanted target a = .ok () b) :
    ∃ v, a.frame.stack.back? = some v ∧
      b.frame.ip = if v.truthy a.heap == wanted then target else a.frame.ip := by
  obtain ⟨v, a₁, hpeek, h⟩ := bind_eq_ok h
  obtain ⟨rfl, hback⟩ := peek_ok hpeek
  refine ⟨v, hback, ?_⟩
  obtain ⟨_, _, hget, h⟩ := bind_eq_ok h
  cases hget
  split at h
  · next htaken =>
    cases h
    rw [if_pos htaken]
  · next hpassed =>
    obtain ⟨_, a₂, hpop, h⟩ := bind_eq_ok h
    cases h
    obtain ⟨-, rfl⟩ := pop_ok hpop
    rw [if_neg hpassed]
    rfl

lemma forIter_ip {exit : Nat} (h : perform (.forIter exit) a = .ok () b) :
    b.frame.ip = (Instruction.branch? a (.forIter exit)).getD a.frame.ip := by
  obtain ⟨v, a₁, hpeek, h⟩ := bind_eq_ok h
  obtain ⟨rfl, hback⟩ := peek_ok hpeek
  cases v
  case iterator r =>
    obtain ⟨next, a₂, hnext, h⟩ := bind_eq_ok h
    obtain ⟨hnext', hframe⟩ := onHeap_ok hnext
    simp only [Instruction.branch?, hback, hnext']
    cases next with
    | some w =>
      cases h
      show a₂.frame.ip = a.frame.ip
      rw [hframe]
    | none =>
      obtain ⟨_, _, -, h⟩ := bind_eq_ok h
      cases h
      rfl
  all_goals cases h

/-- The branches are the ones that the table tells. -/
lemma execute_next_ip {i : Instruction} (h : execute i a = .ok .next b) :
    b.frame.ip = (i.branch? a).getD a.frame.ip := by
  cases i
  case jumpForward | jumpAbsolute | setupLoop | setupExcept | setupFinally =>
    cases h
    rfl
  case continueLoop => cases h
  case popJumpIfFalse target | popJumpIfTrue target =>
    obtain ⟨_, _, hperform, h⟩ := bind_eq_ok h
    cases h
    obtain ⟨v, hback, hip⟩ := popJumpIf_ip hperform
    rw [hip]
    simp only [Instruction.branch?, hback]
    split <;> rfl
  case jumpIfFalseOrPop target | jumpIfTrueOrPop target =>
    obtain ⟨_, _, hperform, h⟩ := bind_eq_ok h
    cases h
    obtain ⟨v, hback, hip⟩ := jumpIfOrPop_ip hperform
    rw [hip]
    simp only [Instruction.branch?, hback]
    split <;> rfl
  case forIter exit =>
    obtain ⟨_, _, hperform, h⟩ := bind_eq_ok h
    cases h
    exact forIter_ip hperform
  all_goals exact execute_ip_of_target?_eq_none rfl h

end Exec

/-! ## The main result -/

lemma Failure.OfOperands.cases {e : FatalError} (h : (Failure.fatal e).OfOperands) :
    (∃ needed found, e = .stackUnderflow needed found) ∨
      ∃ offset d, e = .malformedCode offset d := by
  cases e with
  | stackUnderflow needed found => exact .inl ⟨needed, found, rfl⟩
  | malformedCode offset d => exact .inr ⟨offset, d, rfl⟩
  | _ => cases h

/-- **Instructions touch only their operands.**  This is about every instruction except for the end
of a handler, which removes a block, and about every state of the frame that executes it.

* If there are fewer values on the stack than the instruction has operands, it fails fatally, since
  the stack is too low or the code is malformed.
* Otherwise the values below the operands are the same ones in the same order, whether the
  instruction completes, ends in a signal, calls a function, or fails.  When it completes, the
  number of results and the place where the frame goes on are those of the branch that is taken;
  when it ends in a signal or calls a function, the operands are gone and nothing has come in their
  place.  A call that is refused, which is a fault of the caller as well, has not changed any
  frame. -/
theorem touches_operands_only {i : Instruction} (hi : i ≠ .popExcept) (a : Activation) :
    let need := i.operands a.frame.stack.back?
    let below := a.frame.stack.size - need
    (a.frame.stack.size < need → ∃ e b, Exec.execute i a = .error (.fatal e) b ∧
      ((∃ needed found, e = .stackUnderflow needed found) ∨
        ∃ offset d, e = .malformedCode offset d)) ∧
    (need ≤ a.frame.stack.size →
      match Exec.execute i a with
      | .ok .next b =>
        b.frame.stack.take below = a.frame.stack.take below ∧
        b.frame.stack.size = below + i.results (i.branch? a).isSome ∧
        b.frame.ip = (i.branch? a).getD a.frame.ip
      | .ok (.signal _) b => b.frame.stack = a.frame.stack.take below
      | .ok (.enter callee positional keywords) b =>
        b.frame.stack = a.frame.stack.take below ∧
        ∀ (m m' : Machine) caller? F,
          m.enter callee positional keywords caller? = .error F m' → m'.frames = m.frames
      | .error _ b => b.frame.stack.take below = a.frame.stack.take below) := by
  intro need below
  have hworked := Exec.execute_worked hi a
  have hbelow : below ≤ a.frame.stack.size - i.taken a :=
    Nat.sub_le_sub_left (i.taken_le_operands a) _
  constructor
  · intro hshort
    cases hx : Exec.execute i a with
    | ok o b =>
      rw [hx] at hworked
      exact absurd hworked.1 (Nat.not_le.2 hshort)
    | error e b =>
      rw [hx] at hworked
      obtain ⟨-, he, henough | hfatal⟩ := hworked
      · exact absurd henough (Nat.not_le.2 hshort)
      · cases e with
        | fault F => cases hfatal
        | fatal e => exact ⟨e, b, rfl, he.cases⟩
  · intro henough
    cases hx : Exec.execute i a with
    | error e b =>
      rw [hx] at hworked
      exact hworked.1.mono hbelow
    | ok o b =>
      rw [hx] at hworked
      obtain ⟨-, hsame, hsize⟩ := hworked
      have hsame := hsame.mono hbelow
      have hheight : b.frame.stack.size = below + i.left a o := by
        show b.frame.stack.size = a.frame.stack.size - i.operands a.frame.stack.back? + i.left a o
        omega
      cases o with
      | next => exact ⟨hsame, hheight, Exec.execute_next_ip hx⟩
      | signal s => exact hsame.eq_take hheight
      | enter callee positional keywords =>
        refine ⟨hsame.eq_take hheight, ?_⟩
        intro m m' caller? F hrefused
        obtain ⟨heap, rfl⟩ := Machine.enter_error hrefused
        rfl

/-- An activation with three values, of which the topmost one is true. -/
def threeValues : Activation :=
  { (default : Activation) with frame.stack := #[.int 7, .none, .int 1] }

/-- A jump keeps the value that it has looked at.  A call with two keyword arguments needs five
values and does not find them. -/
theorem touches_operands_only_of_three :
    (∃ b, Exec.execute (.jumpIfTrueOrPop 9) threeValues = .ok .next b ∧
      b.frame.stack.take 2 = threeValues.frame.stack.take 2 ∧ b.frame.stack.size = 3 ∧
      b.frame.ip = 9) ∧
    ∃ e b, Exec.execute (.callFunction 0 2) threeValues = .error (.fatal e) b := by
  constructor
  · obtain ⟨-, hjump⟩ := touches_operands_only (i := .jumpIfTrueOrPop 9) (by simp) threeValues
    have hrun : Exec.execute (.jumpIfTrueOrPop 9) threeValues =
        .ok .next { threeValues with frame.ip := 9 } := rfl
    have hjumped := hjump (by decide)
    rw [hrun] at hjumped
    exact ⟨_, hrun, hjumped⟩
  · obtain ⟨hcall, -⟩ := touches_operands_only (i := .callFunction 0 2) (by simp) threeValues
    obtain ⟨e, b, hfails, -⟩ := hcall (by decide)
    exact ⟨e, b, hfails⟩

end StackMachine
