import CallLifecycle.Proofs.Server.Advance

/-!
# The response that a script makes

A handler makes its response by operations: it sends messages, and it sets what goes with them. The response of a
script is told here without the call that carries it out, its writer and its queues.

* `Voice`, `Setup.SpeaksBy` — how messages are encoded and parts passed, by that of the surroundings which only the
  responses touch;
* `Draft` — a response that is being made: what was sent, and what the next parts depend on;
* `Draft.say?`, `Draft.adopt`, `Draft.closed` — a message, a setting and the end, carried out at once;
* `recite?` — the operations of a script, carried out at once and one after the other;
* `draft_sendMessages`, `draft_apply`, `sent_sendEnd` — **the draft of a call goes the same way**;
* `sayAll?_adopt` — a setting that spares the messages that are kept may be carried out ahead of them.
-/

namespace CallLifecycle

/-- The part that passed, or the rejection that stopped it. -/
def Passage.verdict {P : Type} (p : Passage P) : Except Status P :=
  match p.rejection with
  | some r => .error r
  | none => .ok p.part

namespace Server

inductive Operation (Out : Type) where
  | send (m : Outbound Out)
  | set (setting : Setting)

/-- How the messages of a server are encoded and its response parts passed, with what is remembered of the responses
before. -/
structure Voice (τ Out : Type) where
  compression : Bool
  code : Out → τ → Except Status Bytes × τ
  pass : ResponsePart → τ → Except Status ResponsePart × τ

variable {σ τ Out In W : Type}

/-- A server speaks by a voice: its codec and its interceptors treat responses by what `view` shows of the
surroundings, and that is nothing which the requests touch. -/
structure Setup.SpeaksBy (s : Setup σ Out In) (v : Voice τ Out) (view : σ → τ) : Prop where
  compression : v.compression = s.config.compression
  code : ∀ m x, v.code m (view x) = ((s.codec.encode m x).1, view (s.codec.encode m x).2)
  pass : ∀ p x, v.pass p (view x) = ((s.pipeline.response p x).1.verdict, view (s.pipeline.response p x).2)
  request : ∀ p x, view (s.pipeline.request p x).2 = view x
  decode : ∀ data x, view (s.codec.decode data x).2 = view x

/-- A response that is being made. -/
structure Draft (τ : Type) where
  phase : OutboundPhase := .headersPending
  headers : Metadata := {}
  trailers : Metadata := {}
  /-- Whether messages that leave it to the call are compressed. -/
  compression : Bool := true
  sent : List ResponsePart := []
  memory : τ

/-! ## operations that are carried out at once -/

namespace Draft

/-- A part is sent as it passes, unless it is rejected. -/
def utter? (v : Voice τ Out) (d : Draft τ) (p : ResponsePart) : Option (Draft τ) :=
  match v.pass p d.memory with
  | (.ok q, memory) => some { d with sent := d.sent ++ [q], memory }
  | (.error _, _) => none

/-- The headers go ahead of the first message. -/
def head? (v : Voice τ Out) (d : Draft τ) : Option (Draft τ) :=
  if d.phase = .headersPending then
    { d with phase := .streaming, headers := {} }.utter? v (.metadata d.headers)
  else some d

/-- A message is encoded and sent behind the headers, compressed or not as is then in force. -/
def speak? (v : Voice τ Out) (d : Draft τ) (m : Outbound Out) : Option (Draft τ) :=
  match v.code m.message d.memory with
  | (.ok data, memory) =>
    { d with memory }.utter? v (.message data { compress := shouldCompress v.compression m.compression d.compression })
  | (.error _, _) => none

/-- A message is sent, the headers ahead of it if it is the first. -/
def say? (v : Voice τ Out) (d : Draft τ) (m : Outbound Out) : Option (Draft τ) := (d.head? v).bind (·.speak? v m)

def sayAll? (v : Voice τ Out) (d : Draft τ) (ms : List (Outbound Out)) : Option (Draft τ) := ms.foldlM (say? v) d

/-- A setting, and its answer. -/
def adopt (d : Draft τ) : Setting → Draft τ × Except Status Unit
  | .headers m =>
    if d.phase = .headersPending then ({ d with headers := m }, .ok ()) else (d, .error Call.headersAlreadySent)
  | .trailers m => ({ d with trailers := m }, .ok ())
  | .compression enabled => ({ d with compression := enabled }, .ok ())

/-- All that is sent if the response ends well, here. -/
def closed (v : Voice τ Out) (d : Draft τ) : List ResponsePart :=
  let metadata := if d.phase = .headersPending then d.headers.merge (d.trailers.merge {}) else d.trailers.merge {}
  d.sent ++ [match (v.pass (.close (Status.of .ok "") metadata) d.memory).1 with
    | .ok q => q
    | .error r => .close r {}]

/-- An operation is carried out, its answer put behind those that were given before. -/
def carryOut? (v : Voice τ Out) (r : Draft τ × List (Except Status Unit)) :
    Operation Out → Option (Draft τ × List (Except Status Unit))
  | .send m => (r.1.say? v m).map (·, r.2 ++ [.ok ()])
  | .set setting => some ((r.1.adopt setting).1, r.2 ++ [(r.1.adopt setting).2])

end Draft

/-- The response that a script makes, and the answers to its operations; none if something of it cannot be sent. -/
def recite? (v : Voice τ Out) (memory : τ) (script : List (Operation Out)) :
    Option (Draft τ × List (Except Status Unit)) :=
  script.foldlM (Draft.carryOut? v) ({ memory }, [])

theorem recite?_snoc (v : Voice τ Out) (memory : τ) (past : List (Operation Out)) (o : Operation Out) :
    recite? v memory (past ++ [o]) = (recite? v memory past).bind (Draft.carryOut? v · o) := by
  simp only [recite?, List.foldlM_append]
  congr 1
  funext r
  simp

namespace Draft

variable {v : Voice τ Out} {d d' : Draft τ}

@[simp] theorem sayAll?_nil (v : Voice τ Out) (d : Draft τ) : d.sayAll? v [] = some d := rfl

theorem sayAll?_cons (v : Voice τ Out) (d : Draft τ) (m : Outbound Out) (ms : List (Outbound Out)) :
    d.sayAll? v (m :: ms) = (d.say? v m).bind (·.sayAll? v ms) := rfl

theorem sayAll?_append (v : Voice τ Out) (d : Draft τ) (ms ns : List (Outbound Out)) :
    d.sayAll? v (ms ++ ns) = (d.sayAll? v ms).bind (·.sayAll? v ns) := by
  simp only [sayAll?, List.foldlM_append]
  rfl

/-! ## settings that overtake messages -/

theorem utter?_eq_some {p : ResponsePart} (h : d.utter? v p = some d') :
    d'.phase = d.phase ∧ d'.compression = d.compression := by
  unfold utter? at h
  split at h
  · obtain rfl := Option.some.inj h
    exact ⟨rfl, rfl⟩
  · cases h

theorem head?_eq_some (h : d.head? v = some d') :
    (d.phase ≠ .headersPending → d'.phase = d.phase) ∧ d'.compression = d.compression := by
  unfold head? at h
  split at h
  · rename_i pending
    exact ⟨fun streaming => absurd pending streaming, (utter?_eq_some h).2⟩
  · obtain rfl := Option.some.inj h
    exact ⟨fun _ => rfl, rfl⟩

theorem say?_eq_some {m : Outbound Out} (h : d.say? v m = some d') :
    (d.phase ≠ .headersPending → d'.phase = d.phase) ∧ d'.compression = d.compression := by
  obtain ⟨d₁, headed, spoken⟩ := Option.bind_eq_some_iff.mp h
  obtain ⟨phase, compression⟩ := head?_eq_some headed
  unfold speak? at spoken
  split at spoken
  · obtain ⟨phase', compression'⟩ := utter?_eq_some spoken
    exact ⟨fun streaming => phase'.trans (phase streaming), compression'.trans compression⟩
  · cases spoken

/-- A setting makes no difference to messages that are kept: it may be carried out ahead of them. Headers do if the
first message is among them, and a default of the compression if one of them is left to it. -/
def Spares (v : Voice τ Out) (d : Draft τ) (kept : List (Outbound Out)) : Setting → Prop
  | .headers _ => kept = [] ∨ d.phase ≠ .headersPending
  | .trailers _ => True
  | .compression enabled => ∀ m ∈ kept,
    shouldCompress v.compression m.compression enabled = shouldCompress v.compression m.compression d.compression

instance (v : Voice τ Out) (d : Draft τ) (kept : List (Outbound Out)) :
    (setting : Setting) → Decidable (d.Spares v kept setting)
  | .headers _ => inferInstanceAs (Decidable (kept = [] ∨ d.phase ≠ .headersPending))
  | .trailers _ => inferInstanceAs (Decidable True)
  | .compression enabled => inferInstanceAs (Decidable (∀ m ∈ kept,
      shouldCompress v.compression m.compression enabled = shouldCompress v.compression m.compression d.compression))

theorem spares_nil (v : Voice τ Out) (d : Draft τ) (setting : Setting) : d.Spares v [] setting := by
  cases setting with
  | headers m => exact .inl rfl
  | trailers m => trivial
  | compression enabled => exact fun m mem => absurd mem List.not_mem_nil

theorem Spares.say? {kept : List (Outbound Out)} {setting : Setting} {m : Outbound Out} (h : d.Spares v kept setting)
    (said : d.say? v m = some d') : d'.Spares v kept setting := by
  obtain ⟨phase, compression⟩ := say?_eq_some said
  cases setting with
  | headers headers => exact h.imp id fun streaming => by rwa [phase streaming]
  | trailers trailers => trivial
  | compression enabled => exact fun n mem => by rw [compression, h n mem]

theorem Spares.sayAll? {kept ms : List (Outbound Out)} {setting : Setting} (h : d.Spares v kept setting)
    (said : d.sayAll? v ms = some d') : d'.Spares v kept setting := by
  induction ms generalizing d with
  | nil => exact Option.some.inj said ▸ h
  | cons m ms ih =>
    obtain ⟨d₁, first, rest⟩ := Option.bind_eq_some_iff.mp said
    exact ih (h.say? first) rest

theorem Spares.tail {m : Outbound Out} {kept : List (Outbound Out)} {setting : Setting}
    (h : d.Spares v (m :: kept) setting) : d.Spares v kept setting := by
  cases setting with
  | headers headers => exact .inr (h.resolve_left (by simp))
  | trailers trailers => trivial
  | compression enabled => exact fun n mem => h n (List.mem_cons_of_mem m mem)

/-! ### a setting ahead of a message -/

theorem utter?_trailers (v : Voice τ Out) (d : Draft τ) (m : Metadata) (p : ResponsePart) :
    { d with trailers := m }.utter? v p = (d.utter? v p).map fun d' => { d' with trailers := m } := by
  unfold utter?
  rcases v.pass p d.memory with ⟨_ | q, memory⟩ <;> rfl

theorem utter?_compression (v : Voice τ Out) (d : Draft τ) (enabled : Bool) (p : ResponsePart) :
    { d with compression := enabled }.utter? v p = (d.utter? v p).map fun d' => { d' with compression := enabled } := by
  unfold utter?
  rcases v.pass p d.memory with ⟨_ | q, memory⟩ <;> rfl

theorem say?_trailers (v : Voice τ Out) (d : Draft τ) (trailers : Metadata) (m : Outbound Out) :
    { d with trailers }.say? v m = (d.say? v m).map fun d' => { d' with trailers } := by
  have headed : { d with trailers }.head? v = (d.head? v).map fun d' => { d' with trailers } := by
    unfold head?
    split
    · exact utter?_trailers v { d with phase := .streaming, headers := {} } trailers (.metadata d.headers)
    · rfl
  have spoken (d : Draft τ) : { d with trailers }.speak? v m = (d.speak? v m).map fun d' => { d' with trailers } := by
    unfold speak?
    rcases v.code m.message d.memory with ⟨_ | data, memory⟩
    · rfl
    · exact utter?_trailers v { d with memory } trailers _
  simp only [say?, headed, Option.bind_map, Option.map_bind, Function.comp_def, spoken]

/-- The default of the compression may change ahead of a message to which it makes no difference. -/
theorem say?_compression {enabled : Bool} {m : Outbound Out}
    (same : shouldCompress v.compression m.compression enabled =
      shouldCompress v.compression m.compression d.compression) :
    { d with compression := enabled }.say? v m = (d.say? v m).map fun d' => { d' with compression := enabled } := by
  have headed : { d with compression := enabled }.head? v =
      (d.head? v).map fun d' => { d' with compression := enabled } := by
    unfold head?
    split
    · exact utter?_compression v { d with phase := .streaming, headers := {} } enabled (.metadata d.headers)
    · rfl
  have spoken {d₁ : Draft τ} (kept : d₁.compression = d.compression) :
      { d₁ with compression := enabled }.speak? v m =
        (d₁.speak? v m).map fun d' => { d' with compression := enabled } := by
    rw [← kept] at same
    unfold speak?
    rcases v.code m.message d₁.memory with ⟨_ | data, memory⟩
    · rfl
    · simp only [same]
      exact utter?_compression v { d₁ with memory } enabled _
  rw [say?, say?, headed]
  cases first : d.head? v with
  | none => rfl
  | some d₁ => exact spoken (head?_eq_some first).2

/-- A setting may be carried out ahead of a message that it spares. -/
theorem say?_adopt {m : Outbound Out} {kept : List (Outbound Out)} {setting : Setting}
    (spares : d.Spares v (m :: kept) setting) :
    (d.adopt setting).1.say? v m = (d.say? v m).map (fun d' => (d'.adopt setting).1) ∧
      ∀ d', d.say? v m = some d' → (d'.adopt setting).2 = (d.adopt setting).2 := by
  cases setting with
  | headers headers =>
    have late {d' : Draft τ} (h : d'.phase ≠ .headersPending) :
        d'.adopt (.headers headers) = (d', .error Call.headersAlreadySent) := by
      simp [adopt, h]
    have streaming : d.phase ≠ .headersPending := spares.resolve_left (by simp)
    have behind {d' : Draft τ} (said : d.say? v m = some d') : d'.phase ≠ .headersPending := by
      rwa [(say?_eq_some said).1 streaming]
    rw [late streaming]
    refine ⟨?_, fun d' said => by rw [late (behind said)]⟩
    cases said : d.say? v m with
    | none => rfl
    | some d' => rw [Option.map_some, late (behind said)]
  | trailers trailers => exact ⟨say?_trailers v d trailers m, fun _ _ => rfl⟩
  | compression enabled => exact ⟨say?_compression (spares m List.mem_cons_self), fun _ _ => rfl⟩

/-- A setting may be carried out ahead of the messages that it spares, with the same answer. -/
theorem sayAll?_adopt {kept : List (Outbound Out)} {setting : Setting} (spares : d.Spares v kept setting)
    (answers : List (Except Status Unit)) :
    ((d.adopt setting).1.sayAll? v kept).map (·, answers ++ [(d.adopt setting).2]) =
      ((d.sayAll? v kept).map (·, answers)).bind (carryOut? v · (.set setting)) := by
  induction kept generalizing d with
  | nil => rfl
  | cons m kept ih =>
    obtain ⟨same, answer⟩ := say?_adopt spares
    rw [sayAll?_cons, sayAll?_cons, same]
    cases said : d.say? v m with
    | none => rfl
    | some d' =>
      rw [← answer d' said]
      exact ih (spares.tail.say? said)

end Draft

/-! ## the draft of a call -/

namespace Call

variable {s : Setup σ Out In} {v : Voice τ Out} {view : σ → τ} {c c' : Call σ Out In W}

/-- The response of a call as far as it was sent. -/
def draft (view : σ → τ) (c : Call σ Out In W) : Draft τ where
  phase := c.progress.outbound
  headers := c.headers
  trailers := c.trailers
  compression := c.compressionDefault
  sent := c.sent
  memory := view c.surroundings

theorem Undisturbed.draft_eq (h : Undisturbed c c') : c'.draft view = c.draft view := by
  simp only [draft, h.progress, h.headers, h.trailers, h.compressionDefault, h.sent_eq, h.surroundings]

def draft? (view : σ → τ) (r : Call σ Out In W × Bool) : Option (Draft τ) :=
  if r.2 then some (r.1.draft view) else none

theorem draft_sendPart (speaks : s.SpeaksBy v view) (h : IsOpen c) (p : ResponsePart) :
    draft? view (c.sendPart s p) = (c.draft view).utter? v p := by
  have pass := speaks.pass p c.surroundings
  unfold draft? sendPart Draft.utter?
  simp only [intercept, if_pos h.attached, transmit, emit, draft, pass, Passage.verdict]
  cases hr : (s.pipeline.response p c.surroundings).1.rejection with
  | none =>
    simp [h.attached, Call.sent_eq, Effect.part?,
      (silent_visited (s.pipeline.response p c.surroundings).1.visits).filterMap_eq]
  | some r => rfl

theorem draft_sendHeaders (speaks : s.SpeaksBy v view) (h : IsOpen c) (active : c.progress.handler = .active) :
    draft? view (c.sendHeaders s) = (c.draft view).head? v := by
  by_cases pending : c.progress.outbound = .headersPending
  · have isOpen : IsOpen { c with progress := { c.progress with outbound := .streaming }, headers := {} } :=
      ⟨h.attached, by simp⟩
    have sends : c.sendHeaders s =
        { c with progress := { c.progress with outbound := .streaming }, headers := {} }.sendPart s
          (.metadata c.headers) := by
      simp only [sendHeaders, if_pos pending, send_metadata active pending]
    rw [sends, Draft.head?, if_pos (show (c.draft view).phase = .headersPending from pending)]
    exact draft_sendPart speaks isOpen (.metadata c.headers)
  · rw [sendHeaders, if_neg pending, Draft.head?, if_neg (show ¬ (c.draft view).phase = .headersPending from pending)]
    rfl

/-- A message is encoded, and compressed or not, as the draft has it. -/
theorem draft_sendMessage (speaks : s.SpeaksBy v view) (h : IsOpen c) (active : c.progress.handler = .active)
    (streaming : c.progress.outbound = .streaming) (m : Outbound Out) :
    draft? view (c.sendMessage s m) = (c.draft view).speak? v m := by
  have code : v.code m.message (c.draft view).memory = _ := speaks.code m.message c.surroundings
  have isOpen (x : σ) : IsOpen { c with surroundings := x } := ⟨h.attached, h.outbound⟩
  unfold sendMessage Draft.speak?
  rw [code]
  rcases s.codec.encode m.message c.surroundings with ⟨status | data, x⟩
  · rfl
  · simp only [send_message active streaming, speaks.compression]
    exact draft_sendPart speaks (isOpen x) _

/-- **Messages go the way of the draft**, or the call is given up amid them. -/
theorem draft_sendMessages (speaks : s.SpeaksBy v view) (h : IsOpen c) (active : c.progress.handler = .active)
    (batch : List (Outbound Out)) :
    draft? view (c.sendMessages s batch, !(c.sendMessages s batch).progress.isCompleted) =
      (c.draft view).sayAll? v batch := by
  induction batch generalizing c with
  | nil => simp [draft?, sendMessages, Progress.isCompleted, active]
  | cons m rest ih =>
    have going : c.progress.isCompleted = false := by simp [Progress.isCompleted, active]
    -- A call that was given up has no draft: both sides are `none` from the first failure on.
    have stopped {c c' : Call σ Out In W} (closes : Closes s c [] c') : c'.progress.isCompleted = true := by
      simp [Progress.isCompleted, closes.handler]
    rw [Draft.sayAll?_cons, Draft.say?, ← draft_sendHeaders speaks h active]
    have headers := sendHeaders_cases (s := s) h active
    rcases hh : c.sendHeaders s with ⟨c₁, on⟩
    rw [hh] at headers
    rcases headers with ⟨ps, rfl, said, -, streaming⟩ | ⟨rfl, closes⟩
    · have isOpen : IsOpen c₁ := said.isOpen h
      have active₁ : c₁.progress.handler = .active := said.handler_eq.trans active
      have first : draft? view (c₁, true) = some (c₁.draft view) := rfl
      rw [first, Option.bind_some, ← draft_sendMessage speaks isOpen active₁ streaming]
      have message := sendMessage_cases (s := s) isOpen active₁ streaming m
      rcases hm : c₁.sendMessage s m with ⟨c₂, on⟩
      rw [hm] at message
      rcases message with ⟨p, data, rfl, said', -⟩ | ⟨rfl, closes⟩
      · have goesOn : c.sendMessages s (m :: rest) = c₂.sendMessages s rest := by simp [sendMessages, going, hh, hm]
        rw [goesOn]
        exact ih (said'.isOpen isOpen) (said'.handler_eq.trans active₁)
      · have stops : c.sendMessages s (m :: rest) = c₂ := by simp [sendMessages, going, hh, hm]
        rw [stops, stopped closes]
        rfl
    · have stops : c.sendMessages s (m :: rest) = c₁ := by simp [sendMessages, going, hh]
      rw [stops, stopped closes]
      rfl

theorem draft_apply (view : σ → τ) (going : c.progress.isCompleted = false) (setting : Setting) :
    (c.apply setting).1.draft view = ((c.draft view).adopt setting).1 ∧
      (c.apply setting).2 = ((c.draft view).adopt setting).2 := by
  unfold apply
  rw [if_neg (by simp [going])]
  cases setting with
  | headers m =>
    by_cases pending : c.progress.outbound = .headersPending <;> simp [Draft.adopt, draft, pending]
    rfl
  | _ => exact ⟨rfl, rfl⟩

theorem sent_sendEnd (speaks : s.SpeaksBy v view) (h : IsOpen c) :
    (c.sendEnd s (Status.of .ok "") {}).sent = (c.draft view).closed v := by
  have pass := speaks.pass (.close (Status.of .ok "") (c.closing {})) c.surroundings
  have closed : (c.draft view).closed v =
      c.sent ++ [match (v.pass (.close (Status.of .ok "") (c.closing {})) (view c.surroundings)).1 with
        | .ok q => q
        | .error r => .close r {}] := rfl
  rw [closed, pass]
  unfold sendEnd
  simp only [send_close h.outbound, intercept, if_pos h.attached, transmit, release, emit]
  rw [← closing]
  generalize s.pipeline.response (.close (Status.of .ok "") (c.closing {})) c.surroundings = passage
  rcases passage with ⟨⟨part, rejection, visits⟩, x⟩
  cases rejection <;>
    simp [Call.sent_eq, Passage.verdict, (silent_visited visits).filterMap_eq, Effect.part?]

end Call

end Server

end CallLifecycle
