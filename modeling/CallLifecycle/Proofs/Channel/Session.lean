import CallLifecycle.Proofs.Runs
import CallLifecycle.Proofs.Stream.Reading
import Mathlib.Data.List.Induction

/-!
# What the consumer of a channel reads

A session plays the producers of one channel and its consumer, in any order of steps. Clones of the producer share
the channel; the consumer reads through futures, by itself or as a sequence of items, as it likes.

* `Session.step`, `Session.answer` — a step and its answer;
* `Session.history` — what was asked and answered in a session;
* `Session.accepted`, `Session.taken`, `Session.reason?` — what was accepted and what was read by then, and how the
  channel was closed first;
* `Books`, `books_after` — the channel stands as its history tells;
* `reads_of_history` — **the reads of a session**: what was read and what is queued is what was accepted, and behind
  that the first end is told, again and again.
-/

namespace CallLifecycle.Channel

/-- A step of the producers or of the consumer of a channel. -/
inductive Act (α ε W : Type) where
  | push (a : α)
  /-- The channel is closed, with this failure if not cleanly. -/
  | close (reason : Option ε)
  /-- A future of the next element is looked at. It is gone once it was answered. -/
  | await (w : W)
  /-- A future of the next element is dropped. -/
  | abandon
  | poll (w : W)
  /-- The next item is looked for. -/
  | item (w : W)

inductive Answer (α ε : Type) where
  | handover (h : Handover)
  | read (r : Poll (Except ε (Option α)))
  | item (r : Poll (Item α ε))
  | nothing

namespace Act

variable {α ε W : Type}

def produces : Act α ε W → Bool
  | push _ => true
  | close _ => true
  | _ => false

def reads : Act α ε W → Bool
  | await _ => true
  | poll _ => true
  | _ => false

def reason? : Act α ε W → Option (Option ε)
  | close reason => some reason
  | _ => none

end Act

/-- How a channel stands that was closed for a reason, if it was. -/
def ended {ε : Type} : Option (Option ε) → Terminal ε
  | none => .live
  | some none => .finished
  | some (some e) => .failed e

def outcome {α ε : Type} : Option ε → Except ε (Option α)
  | none => .ok none
  | some e => .error e

/-- What is read of a queue: its first element or, behind the last, how the channel was closed, if it was. -/
def nextRead {α ε : Type} : List α → Option (Option ε) → Poll (Except ε (Option α))
  | a :: _, _ => .ready (.ok (some a))
  | [], some reason => .ready (outcome reason)
  | [], none => .pending

def Answer.element? {α ε : Type} : Answer α ε → Option α
  | .read (.ready (.ok (some a))) => some a
  | .item (.ready (.next a)) => some a
  | _ => none

def Answer.isLastItem {α ε : Type} : Answer α ε → Bool
  | .item (.ready i) => i.isLast
  | _ => false

theorem element?_read {α ε : Type} (queue : List α) (end? : Option (Option ε)) :
    (Answer.read (nextRead queue end?)).element? = queue.head? := by
  rcases queue with _ | ⟨a, rest⟩
  · rcases end? with _ | _ | e <;> rfl
  · rfl

theorem element?_item {α ε : Type} (queue : List α) (end? : Option (Option ε)) :
    (Answer.item ((nextRead queue end?).map Item.ofRead)).element? = queue.head? := by
  rcases queue with _ | ⟨a, rest⟩
  · rcases end? with _ | _ | e <;> rfl
  · rfl

theorem isLastItem_item {α ε : Type} {queue : List α} {end? : Option (Option ε)}
    (h : (Answer.item ((nextRead queue end?).map Item.ofRead)).isLastItem = true) : queue = [] ∧ end? ≠ none := by
  rcases queue with _ | ⟨a, rest⟩
  · rcases end? with _ | reason
    · cases h
    · exact ⟨rfl, nofun⟩
  · cases h

def brought? {α ε W : Type} : Act α ε W × Answer α ε → Option α
  | (.push a, .handover (.accepted _)) => some a
  | _ => none

/-- A channel in use, and whether the last item was read of it. -/
structure Session (α ε W : Type) where
  channel : Channel α ε W := {}
  done : Bool := false

variable {α ε W : Type} {c : Channel α ε W}

/-! ## one look -/

theorem poll_eq {end? : Option (Option ε)} (h : c.terminal = ended end?) (w : W) :
    (c.poll w).2 = nextRead c.queue end? := by
  unfold poll
  cases c.queue with
  | cons a rest => rfl
  | nil => rcases end? with _ | _ | e <;> simp [h, ended, nextRead, outcome]

@[simp] theorem queue_poll (c : Channel α ε W) (w : W) : (c.poll w).1.queue = c.queue.tail := by
  unfold poll
  cases hq : c.queue with
  | cons a rest => rfl
  | nil => cases c.terminal <;> simp [hq]

@[simp] theorem terminal_poll (c : Channel α ε W) (w : W) : (c.poll w).1.terminal = c.terminal := by
  unfold poll
  cases c.queue with
  | cons a rest => rfl
  | nil => cases ht : c.terminal <;> simp [ht]

theorem pollItem_of_going (c : Channel α ε W) (w : W) :
    (c.pollItem false w).1 = (c.poll w).1 ∧ (c.pollItem false w).2.2 = (c.poll w).2.map Item.ofRead ∧
      (c.pollItem false w).2.1 = (Answer.item (c.pollItem false w).2.2).isLastItem := by
  simp only [pollItem, nextItem]
  rcases c.poll w with ⟨c', _ | r⟩ <;> exact ⟨rfl, rfl, rfl⟩

namespace Session

def step (x : Session α ε W) : Act α ε W → Session α ε W
  | .push a => { x with channel := (x.channel.push a).1 }
  | .close reason => { x with channel := (x.channel.terminate (ended (some reason))).1 }
  | .await w =>
    let (c, r) := x.channel.poll w
    { x with channel := if r.isReady then c.forget else c }
  | .abandon => { x with channel := x.channel.forget }
  | .poll w => { x with channel := (x.channel.poll w).1 }
  | .item w => { channel := (x.channel.pollItem x.done w).1, done := (x.channel.pollItem x.done w).2.1 }

def answer (x : Session α ε W) : Act α ε W → Answer α ε
  | .push a => .handover (x.channel.push a).2.1
  | .close reason => .handover (x.channel.terminate (ended (some reason))).2.1
  | .await w => .read (x.channel.poll w).2
  | .abandon => .nothing
  | .poll w => .read (x.channel.poll w).2
  | .item w => .item (x.channel.pollItem x.done w).2.2

def history (x : Session α ε W) (acts : List (Act α ε W)) : List (Act α ε W × Answer α ε) :=
  gather step (fun x a => [(a, x.answer a)]) x acts

def accepted (acts : List (Act α ε W)) : List α := (history {} acts).filterMap brought?

def taken (acts : List (Act α ε W)) : List α := (history {} acts).filterMap (·.2.element?)

def reason? (acts : List (Act α ε W)) : Option (Option ε) := acts.findSome? Act.reason?

/-- Whether the last item was read. -/
def told (acts : List (Act α ε W)) : Bool := (history {} acts).any (·.2.isLastItem)

section Runs

variable (x : Session α ε W) (acts late : List (Act α ε W)) (a : Act α ε W)

theorem accepted_snoc :
    accepted (acts ++ [a]) = accepted acts ++ (brought? (a, (run step {} acts).answer a)).toList := by
  cases h : brought? (a, (run step {} acts).answer a) <;> simp [accepted, history, gather_snoc, h]

theorem taken_snoc : taken (acts ++ [a]) = taken acts ++ ((run step {} acts).answer a).element?.toList := by
  cases h : ((run step {} acts).answer a).element? <;> simp [taken, history, gather_snoc, h]

theorem told_snoc : told (acts ++ [a]) = (told acts || ((run step {} acts).answer a).isLastItem) := by
  simp [told, history, gather_snoc]

theorem reason?_append : reason? (acts ++ late) = (reason? acts).or (reason? late) := by
  simp [reason?]

theorem reason?_snoc : reason? (acts ++ [a]) = (reason? acts).or a.reason? := by
  cases h : a.reason? <;> simp [reason?, h]

end Runs

/-! ## the books -/

/-- A channel stands as its history tells. -/
structure Books (acts : List (Act α ε W)) (x : Session α ε W) : Prop where
  account : taken acts ++ x.channel.queue = accepted acts
  terminal : x.channel.terminal = ended (reason? acts)
  done : x.done = told acts
  /-- The last item stands behind all others. -/
  last : x.done = true → x.channel.queue = [] ∧ reason? acts ≠ none

variable {acts : List (Act α ε W)} {x : Session α ε W}

theorem books_new : Books ([] : List (Act α ε W)) {} := ⟨rfl, rfl, rfl, by simp⟩

theorem Books.live (h : Books acts x) (isOpen : reason? acts = none) : x.channel.terminal = .live := by
  rw [h.terminal, isOpen]
  rfl

theorem Books.not_live (h : Books acts x) (closed : reason? acts ≠ none) : x.channel.terminal ≠ .live := by
  obtain ⟨reason, closed⟩ := Option.ne_none_iff_exists'.mp closed
  rw [h.terminal, closed]
  cases reason <;> nofun

theorem Books.answer_of_isOpen (h : Books acts x) (isOpen : reason? acts = none) {a : Act α ε W}
    (produces : a.produces = true) : ∃ depth, x.answer a = .handover (.accepted depth) := by
  have open' := isTerminated_of_live (h.live isOpen)
  cases a with
  | push a =>
    simp only [answer, Channel.push, open']
    cases x.channel.waiter <;> exact ⟨_, rfl⟩
  | close reason => exact ⟨0, by simp [answer, terminate, open']⟩
  | _ => cases produces

theorem Books.answer_of_closed (h : Books acts x) (closed : reason? acts ≠ none) {a : Act α ε W}
    (produces : a.produces = true) : x.answer a = .handover .dropped ∧ x.step a = x := by
  have shut := isTerminated_of_not_live (h.not_live closed)
  cases a with
  | push a => simp [answer, step, Channel.push, shut]
  | close reason => simp [answer, step, terminate, shut]
  | _ => cases produces

theorem Books.answer_of_reads (h : Books acts x) {a : Act α ε W} (reads : a.reads = true) :
    x.answer a = .read (nextRead x.channel.queue (reason? acts)) := by
  cases a with
  | await w => simp only [answer, poll_eq h.terminal]
  | poll w => simp only [answer, poll_eq h.terminal]
  | _ => cases reads

theorem Books.answer_item (h : Books acts x) (w : W) :
    x.answer (.item w) =
      .item (if told acts then .ready .ended else (nextRead x.channel.queue (reason? acts)).map Item.ofRead) := by
  rw [answer, ← h.done]
  cases x.done with
  | true => rfl
  | false => simp [pollItem_of_going, poll_eq h.terminal]

/-- What the consumer does may take the first element of the queue, and leaves all else as it is. -/
theorem Books.consumed (h : Books acts x) {a : Act α ε W} (is : x = run step {} acts) (consumes : a.produces = false)
    (queue : (x.answer a).element?.toList ++ (x.step a).channel.queue = x.channel.queue)
    (terminal : (x.step a).channel.terminal = x.channel.terminal)
    (done : (x.step a).done = (x.done || (x.answer a).isLastItem))
    (last : (x.answer a).isLastItem = true → x.channel.queue = [] ∧ reason? acts ≠ none) :
    Books (acts ++ [a]) (x.step a) := by
  have same : reason? (acts ++ [a]) = reason? acts := by
    cases a <;> simp_all [reason?, Act.reason?, Act.produces]
  -- The consumer neither closes the channel nor brings an element: the books change on the side of the reads alone.
  have brings : brought? (a, x.answer a) = none := by
    cases a <;> simp_all [brought?, Act.produces]
  refine ⟨?_, ?_, ?_, fun isDone => ?_⟩
  · rw [taken_snoc, accepted_snoc, ← is, brings, ← h.account, ← queue]
    simp
  · rw [terminal, same, h.terminal]
  · rw [done, told_snoc, h.done, is]
  · rw [done, Bool.or_eq_true] at isDone
    obtain ⟨empty, closed⟩ := isDone.elim h.last last
    rw [empty, List.append_eq_nil_iff] at queue
    exact ⟨queue.2, same ▸ closed⟩

theorem Books.dropped (h : Books acts x) {a : Act α ε W} (is : x = run step {} acts) (closed : reason? acts ≠ none)
    (produces : a.produces = true) : Books (acts ++ [a]) (x.step a) := by
  obtain ⟨dropped, unchanged⟩ := h.answer_of_closed closed produces
  obtain ⟨reason, is'⟩ := Option.ne_none_iff_exists'.mp closed
  have same : reason? (acts ++ [a]) = reason? acts := by rw [reason?_snoc, is', Option.some_or]
  have brings : brought? (a, x.answer a) = none := by
    rw [dropped]
    cases a <;> rfl
  rw [unchanged]
  refine ⟨?_, same ▸ h.terminal, ?_, same ▸ h.last⟩
  · rw [taken_snoc, accepted_snoc, ← is, brings, dropped, ← h.account]
    simp [Answer.element?]
  · simp [told_snoc, h.done, ← is, dropped, Answer.isLastItem]

theorem books_snoc (h : Books acts x) (is : x = run step {} acts) (a : Act α ε W) : Books (acts ++ [a]) (x.step a) := by
  cases a with
  | push a =>
    cases isOpen : reason? acts with
    | some reason => exact h.dropped is (by simp [isOpen]) rfl
    | none =>
      obtain ⟨depth, accepted⟩ := h.answer_of_isOpen isOpen (a := .push a) rfl
      obtain ⟨queue, live⟩ := push_of_live (h.live isOpen) a
      refine ⟨?_, ?_, ?_, fun isDone => absurd isOpen (h.last isDone).2⟩
      · rw [taken_snoc, accepted_snoc, ← is, accepted, ← h.account]
        simp [step, queue, brought?, Answer.element?]
      · rw [reason?_snoc, isOpen]
        exact live
      · simp [step, told_snoc, h.done, ← is, accepted, Answer.isLastItem]
  | close reason =>
    cases isOpen : reason? acts with
    | some reason => exact h.dropped is (by simp [isOpen]) rfl
    | none =>
      refine ⟨?_, ?_, ?_, fun isDone => absurd isOpen (h.last isDone).2⟩
      · rw [taken_snoc, accepted_snoc, ← h.account]
        simp [step, brought?, answer, Answer.element?]
      · rw [reason?_snoc, isOpen]
        exact terminal_terminate_of_live (h.live isOpen) _
      · simp [step, told_snoc, h.done, ← is, answer, Answer.isLastItem]
  | await w =>
    have told := h.answer_of_reads (a := .await w) rfl
    have channel : (x.step (.await w)).channel.queue = x.channel.queue.tail ∧
        (x.step (.await w)).channel.terminal = x.channel.terminal := by
      simp only [step]
      split <;> exact ⟨queue_poll _ w, terminal_poll _ w⟩
    refine h.consumed is rfl ?_ channel.2 ?_ ?_
    · rw [told, element?_read, channel.1]
      cases x.channel.queue <;> rfl
    · simp [step, told, Answer.isLastItem]
    · simp [told, Answer.isLastItem]
  | abandon => exact h.consumed is rfl rfl rfl (by simp [step, answer, Answer.isLastItem]) nofun
  | poll w =>
    have told := h.answer_of_reads (a := .poll w) rfl
    refine h.consumed is rfl ?_ (terminal_poll _ w) ?_ ?_
    · rw [told, element?_read, step, queue_poll]
      cases x.channel.queue <;> rfl
    · simp [step, told, Answer.isLastItem]
    · simp [told, Answer.isLastItem]
  | item w =>
    have item := h.answer_item w
    rw [← h.done] at item
    -- Behind the last item a look leaves the channel alone; before it, it is a read that is told as an item.
    cases isDone : x.done with
    | true =>
      have still : x.step (.item w) = x := by
        cases x
        cases isDone
        rfl
      rw [isDone, if_pos rfl] at item
      exact h.consumed is rfl (by simp [still, item, Answer.element?]) (by rw [still]) (by simp [still, isDone])
        fun _ => h.last isDone
    | false =>
      obtain ⟨channel, -, done⟩ := pollItem_of_going x.channel w
      rw [isDone, if_neg (by simp)] at item
      refine h.consumed is rfl ?_ ?_ ?_ fun last => isLastItem_item (item ▸ last)
      · rw [item, element?_item, step, isDone, channel, queue_poll]
        cases x.channel.queue <;> rfl
      · rw [step, isDone, channel, terminal_poll]
      · rw [step, answer, isDone, done, Bool.false_or]

/-- **In every session** the channel stands as its history tells. -/
theorem books_after (acts : List (Act α ε W)) : Books acts (run step {} acts) := by
  induction acts using List.reverseRecOn with
  | nil => exact books_new
  | append_singleton acts a ih =>
    rw [run_append]
    exact books_snoc ih rfl a

/-! ## what is read -/

def unread (acts : List (Act α ε W)) : List α := (accepted acts).drop (taken acts).length

theorem queue_after (acts : List (Act α ε W)) : (run step {} acts).channel.queue = unread acts := by
  rw [unread, ← (books_after acts).account, List.drop_left]

/-- An end is read behind the last element. -/
theorem end_of_nextRead {queue : List α} {end? : Option (Option ε)} {r : Except ε (Option α)}
    (h : nextRead queue end? = .ready r) (isEnd : ∀ a, r ≠ .ok (some a)) :
    queue = [] ∧ ∃ reason, end? = some reason ∧ r = outcome reason := by
  rcases queue with _ | ⟨a, rest⟩
  · rcases end? with _ | reason
    · cases h
    · exact ⟨rfl, reason, rfl, (Poll.ready.inj h).symm⟩
  · exact absurd (Poll.ready.inj h).symm (isEnd a)

theorem exhausted_append {reason : Option ε} (closed : reason? acts = some reason) (empty : unread acts = [])
    (late : List (Act α ε W)) : reason? (acts ++ late) = some reason ∧ unread (acts ++ late) = [] := by
  refine ⟨by rw [reason?_append, closed, Option.some_or], ?_⟩
  induction late using List.reverseRecOn with
  | nil => rwa [List.append_nil]
  | append_singleton late a ih =>
    have books := books_after (acts ++ late)
    have closed' : reason? (acts ++ late) ≠ none := by rw [reason?_append, closed, Option.some_or]; nofun
    have next := books_snoc books rfl a
    have queue := books.account
    rw [queue_after, ih, List.append_nil] at queue
    have nothing : brought? (a, (run step {} (acts ++ late)).answer a) = none := by
      cases produces : a.produces with
      | true =>
        rw [(books.answer_of_closed closed' produces).1]
        cases a <;> rfl
      | false => cases a <;> simp_all [brought?, Act.produces]
    have account := next.account
    rw [taken_snoc, accepted_snoc, nothing, ← queue, List.append_assoc] at account
    have rest := List.append_cancel_left account
    rw [← List.append_assoc, ← queue_after, run_append]
    exact (List.append_eq_nil_iff.mp rest).2

theorem told_append (early : told acts = true) (late : List (Act α ε W)) : told (acts ++ late) = true := by
  simp only [told, history, gather_append, List.any_append, Bool.or_eq_true] at early ⊢
  exact .inl early

/-- What the producers and the consumer of a channel can rely on, behind some steps. -/
structure Faithful (acts : List (Act α ε W)) : Prop where
  /-- What was read and what is queued is what was accepted, in order. -/
  account : taken acts ++ (run step {} acts).channel.queue = accepted acts
  /-- As long as nobody closed the channel, all that a producer brings is accepted. -/
  isOpen : reason? acts = none → ∀ a, a.produces = true →
    ∃ depth, (run step {} acts).answer a = .handover (.accepted depth)
  /-- From then on it is dropped, and changes nothing. -/
  closed : reason? acts ≠ none → ∀ a, a.produces = true →
    (run step {} acts).answer a = .handover .dropped ∧ (run step {} acts).step a = run step {} acts
  /-- The next element is read or, behind the last, how the channel was closed first. -/
  read : ∀ a, a.reads = true → (run step {} acts).answer a = .read (nextRead (unread acts) (reason? acts))
  /-- The next item is the same, up to the last one. -/
  item : ∀ w, (run step {} acts).answer (.item w) =
    .item (if told acts then .ready .ended else (nextRead (unread acts) (reason? acts)).map Item.ofRead)
  /-- An end that is read is the first one, stands behind all elements, and is read again ever after. -/
  replayed : ∀ a r, a.reads = true → (run step {} acts).answer a = .read (.ready r) → (∀ m, r ≠ .ok (some m)) →
    taken acts = accepted acts ∧ (∃ reason, reason? acts = some reason ∧ r = outcome reason) ∧
      ∀ late a', a'.reads = true → (run step {} (acts ++ late)).answer a' = .read (.ready r)
  /-- Behind the last item there is none, ever after. -/
  last : ∀ w i, (run step {} acts).answer (.item w) = .item (.ready i) → i.isLast = true →
    ∀ late w', (run step {} (acts ++ .item w :: late)).answer (.item w') = .item (.ready .ended)

/-- **The reads of every session.** Whatever the producers of a channel and its consumer do, in whatever order: what
was read and what is still queued is what was accepted; behind the first end nothing is accepted any more; that end is
read behind all that was accepted, again and again; and items are told of it once. -/
theorem reads_of_history (acts : List (Act α ε W)) : Faithful acts := by
  have books := books_after acts
  refine ⟨books.account, fun isOpen a => books.answer_of_isOpen isOpen, fun closed a => books.answer_of_closed closed,
    fun a reads => ?_, fun w => ?_, fun a r reads answer isEnd => ?_, fun w i answer isLast late w' => ?_⟩
  · rw [books.answer_of_reads reads, queue_after]
  · rw [books.answer_item w, queue_after]
  · rw [books.answer_of_reads reads, queue_after] at answer
    obtain ⟨empty, reason, closed, rfl⟩ := end_of_nextRead (Answer.read.inj answer) isEnd
    refine ⟨?_, ⟨reason, closed, rfl⟩, fun late a' reads' => ?_⟩
    · have account := books.account
      rwa [queue_after, empty, List.append_nil] at account
    · obtain ⟨closed', empty'⟩ := exhausted_append closed empty late
      rw [(books_after (acts ++ late)).answer_of_reads reads', queue_after, empty', closed']
      rfl
  · have now : told (acts ++ [.item w]) = true := by
      rw [told_snoc, answer, Bool.or_eq_true]
      exact .inr isLast
    have ever := told_append now late
    rw [List.append_assoc, List.singleton_append] at ever
    rw [(books_after _).answer_item w', if_pos ever]

end Session

end CallLifecycle.Channel
