import CallLifecycle.Proofs.Client.Stillness
import CallLifecycle.Proofs.Server.Intake

/-!
# What a client call says at one step

Some request parts are sent through the interceptors, up to a failure that ends the call. The lemmas say of each sender
which parts these are, which messages they carry, and how far they take the request.
-/

namespace CallLifecycle.Client

open Server (InboundPhase)

namespace Call

variable {σ Out In W : Type} {s : Setup σ Out In} {c c' c'' : Call σ Out In W}

/-- Some request parts are sent through the interceptors; either all goes well, or a failure behind them ends the
call. -/
inductive Utters (s : Setup σ Out In) (c : Call σ Out In W) (stop : Stop) (ps : List RequestPart) :
    Bool → Call σ Out In W → Prop
  | on (x : σ) (es : List (Effect W)) (comes : List.Forall₂ (Comes s.pipeline) ps (es.filterMap Effect.part?))
      (quiet : es.any Effect.isStopping = false) : Utters s c stop ps true (c.beside x es)
  | off (status : Status) (x : σ) (es : List (Effect W))
      (comes : List.Forall₂ (Comes s.pipeline) ps (es.filterMap Effect.part?)) :
      Utters s c stop ps false ((c.beside x es).terminate status stop)

theorem Utters.nothing (c : Call σ Out In W) (stop : Stop) : Utters s c stop [] true c := by
  have h : Utters s c stop [] true (c.beside c.surroundings []) := .on _ _ .nil rfl
  rwa [beside_nil] at h

theorem Utters.behind {stop : Stop} {ps qs : List RequestPart} {whole : Bool} {x : σ} {es : List (Effect W)}
    (comes : List.Forall₂ (Comes s.pipeline) ps (es.filterMap Effect.part?)) (quiet : es.any Effect.isStopping = false)
    (h : Utters s (c.beside x es) stop qs whole c') : Utters s c stop (ps ++ qs) whole c' := by
  cases h with
  | on y fs comes' quiet' =>
    rw [beside_beside]
    exact .on y _ (by simpa using List.rel_append comes comes') (by simp [quiet, quiet'])
  | off status y fs comes' =>
    rw [beside_beside]
    exact .off status y _ (by simpa using List.rel_append comes comes')

/-- What was said before is kept, and a call that goes on holds what it held. -/
structure Said (s : Setup σ Out In) (c c' : Call σ Out In W) (ps : List RequestPart) : Prop where
  sent : ∃ qs, c'.sent = c.sent ++ qs ∧ List.Forall₂ (Comes s.pipeline) ps qs
  writer : c.writer.Leads c'.writer
  pending : c.writer.pending = [] → c'.writer.pending = []
  holds : c'.holdsWriter = true → c.holdsWriter = true
  going : Going c' → Going c ∧ c'.attached = c.attached ∧ c'.writer = c.writer ∧
    c'.trace.any Effect.isStopping = c.trace.any Effect.isStopping

theorem Utters.said {stop : Stop} {ps : List RequestPart} {whole : Bool} (h : Utters s c stop ps whole c') :
    Said s c c' ps ∧ (Going c' → whole = true) := by
  cases h with
  | on x es comes quiet =>
    refine ⟨⟨⟨_, by simp [sent_eq, beside], comes⟩, .refl _, id, id, fun h => ?_⟩, fun _ => rfl⟩
    exact ⟨h, rfl, rfl, by simp [beside, quiet]⟩
  | off status x es comes =>
    have still := still_terminate (c.beside x es) status stop
    have gone := not_going_of_finished (finished_terminate (c.beside x es) status stop)
    refine ⟨⟨⟨_, ?_, comes⟩, still.writer, still.pending, still.holds, fun h => absurd h gone⟩,
      fun h => absurd h gone⟩
    rw [still.sent]
    simp [sent_eq, beside]

theorem sendPart_utters (s : Setup σ Out In) (attached : c.attached = true) (p : RequestPart) (o : SendOptions) :
    (∃ x es, c.sendPart s p o = (c.beside x es, none) ∧
      List.Forall₂ (Comes s.pipeline) [p] (es.filterMap Effect.part?) ∧ es.any Effect.isStopping = false) ∨
    ∃ r x es, c.sendPart s p o = (c.beside x es, some r) ∧ Hushed es := by
  unfold sendPart
  rcases hp : s.pipeline.request p c.surroundings with ⟨⟨q, rejection, visits⟩, y⟩
  have hushed := hushed_visited (W := W) visits
  cases rejection with
  | some r => exact .inr ⟨r, y, visits.map .visited, rfl, hushed⟩
  | none =>
    refine .inl ⟨y, visits.map .visited ++ [.sent q o], by simp [emit, beside, attached], ?_, ?_⟩
    · have comes : Comes s.pipeline p q := ⟨c.surroundings, by rw [hp], by rw [hp]⟩
      simpa [hushed.sent, Effect.part?] using comes
    · simp [hushed.unstopped, Effect.isStopping]

/-- The parts that messages are sent as: those of the first of them, and of all of them if all goes well. -/
structure Coded (s : Setup σ Out In) (batch : List (Outbound Out)) (ps : List RequestPart)
    (done : List (Outbound Out)) (whole : Bool) : Prop where
  codes : List.Forall₂ s.codec.Encodes done (requestPayloads ps)
  sub : done <+: batch
  whole : whole = true → done = batch

/-- One part is sent that is no message, and takes the request from a phase to the next. -/
theorem coded_part {p : RequestPart} {phase next : InboundPhase} (single : phase.next? p.kind = some next)
    (bare : requestPayloads [p] = []) (whole : Bool) :
    Coded s [] (if whole then [p] else []) [] whole ∧
      phase.follow ((if whole then [p] else []).map RequestPart.kind) = some (if whole then next else phase) := by
  cases whole with
  | true => exact ⟨⟨by simp [bare], List.prefix_rfl, fun _ => rfl⟩, by simp [InboundPhase.follow, single]⟩
  | false => exact ⟨⟨.nil, List.prefix_rfl, fun _ => rfl⟩, rfl⟩

theorem utters_metadata (attached : c.attached = true) (m : Metadata) :
    ∃ ps whole, Utters s c .inline ps whole (c.sendMetadata s m) ∧ Coded s [] ps [] whole ∧
      InboundPhase.awaitingMetadata.follow (ps.map RequestPart.kind) =
        some (if whole then .receiving else .awaitingMetadata) := by
  have next : InboundPhase.awaitingMetadata.next? (RequestPart.metadata m).kind = some .receiving := rfl
  have coded := coded_part (s := s) next rfl
  unfold sendMetadata
  rcases sendPart_utters s attached (.metadata m) {} with ⟨x, es, e, comes, quiet⟩ | ⟨r, x, es, e, hushed⟩ <;>
    simp only [e]
  · exact ⟨_, true, .on x es comes quiet, coded true⟩
  · exact ⟨[], false, .off r x es (by simp [hushed.sent]), coded false⟩

theorem utters_end (unfinished : c.finished = false) (attached : c.attached = true) (stop : Stop) :
    ∃ ps whole, Utters s c stop ps whole (c.sendEnd s stop) ∧ Coded s [] ps [] whole ∧
      InboundPhase.receiving.follow (ps.map RequestPart.kind) = some (if whole then .closed else .receiving) := by
  have next : InboundPhase.receiving.next? RequestPart.close.kind = some .closed := rfl
  have coded := coded_part (s := s) next rfl
  rw [sendEnd, if_neg (by simp [unfinished])]
  rcases sendPart_utters s attached .close {} with ⟨x, es, e, comes, quiet⟩ | ⟨r, x, es, e, hushed⟩ <;>
    simp only [e]
  · exact ⟨_, true, .on x es comes quiet, coded true⟩
  · exact ⟨[], false, .off r x es (by simp [hushed.sent]), coded false⟩

theorem utters_messages (unfinished : c.finished = false) (attached : c.attached = true) (stop : Stop)
    (batch : List (Outbound Out)) :
    ∃ ps whole done, Utters s c stop ps whole (c.sendMessages s stop batch) ∧ Coded s batch ps done whole ∧
      ∀ p ∈ ps, p.kind = .message := by
  induction batch generalizing c with
  | nil => exact ⟨[], true, [], .nothing c stop, ⟨.nil, List.prefix_rfl, fun _ => rfl⟩, by simp⟩
  | cons m rest ih =>
    rw [sendMessages, if_neg (by simp [unfinished])]
    have e (x : σ) : { c with surroundings := x } = c.beside x [] := by simp [beside]
    simp only [e]
    rcases hm : s.codec.encode m.message c.surroundings with ⟨status | data, x⟩
    · exact ⟨[], false, [], .off status x [] .nil, ⟨.nil, List.nil_prefix, by simp⟩, by simp⟩
    · have encodes : s.codec.Encodes m data := ⟨c.surroundings, by rw [hm]⟩
      rcases sendPart_utters s (c := c.beside x []) attached (.message data)
          { compress := shouldCompress s.config.compression m.compression s.options.compression } with
        ⟨y, es, e, comes, quiet⟩ | ⟨r, y, es, e, hushed⟩ <;> rw [beside_beside, List.nil_append] at e <;>
        simp only [e]
      · obtain ⟨ps, whole, done, utters, coded, kinds⟩ := ih (c := c.beside y es) unfinished attached
        refine ⟨.message data :: ps, whole, m :: done, utters.behind comes quiet,
          ⟨.cons encodes coded.codes, ?_, ?_⟩, ?_⟩
        · exact (List.cons_prefix_cons).mpr ⟨rfl, coded.sub⟩
        · exact fun h => by rw [coded.whole h]
        · simpa [RequestPart.kind] using kinds
      · exact ⟨[], false, [], .off r y es (by simp [hushed.sent]), ⟨.nil, List.nil_prefix, by simp⟩, by simp⟩

theorem follow_messages {ps : List RequestPart} (h : ∀ p ∈ ps, p.kind = .message) :
    InboundPhase.receiving.follow (ps.map RequestPart.kind) = some .receiving := by
  induction ps with
  | nil => rfl
  | cons p ps ih =>
    simp only [List.mem_cons, forall_eq_or_imp] at h
    simp [InboundPhase.follow, h.1, InboundPhase.next?, ih h.2]

/-- The phase of a request behind what its writer handed over. -/
def phaseBehind (whole : Bool) (events : List (WriterEvent (Outbound Out) Failure)) : InboundPhase :=
  if whole && events.any WriterEvent.isEnd then .closed else .receiving

/-- What a request writer hands over is sent. -/
theorem utters_events (unfinished : c.finished = false) (alive : c.alive = true) (attached : c.attached = true)
    {events : List (WriterEvent (Outbound Out) Failure)} (last : events.Pairwise fun e _ => e.isEnd = false)
    (ends : ∀ e ∈ events, e.isEnd = true → e = .terminated none) :
    ∃ ps whole done, Utters s c .deferred ps whole (events.foldl (fun c e => c.onWriterEvent s e) c) ∧
      Coded s (handedOver events) ps done whole ∧
      InboundPhase.receiving.follow (ps.map RequestPart.kind) = some (phaseBehind whole events) := by
  induction events generalizing c with
  | nil => exact ⟨[], true, [], .nothing c _, ⟨.nil, List.prefix_rfl, fun _ => rfl⟩, rfl⟩
  | cons e rest ih =>
    obtain ⟨first, behind⟩ := List.pairwise_cons.mp last
    have ends' := fun e mem => ends e (List.mem_cons_of_mem _ mem)
    rw [List.foldl_cons]
    cases e with
    | yielded batch =>
      rw [onWriterEvent, if_pos alive]
      obtain ⟨ps, whole, done, utters, coded, kinds⟩ := utters_messages (s := s) unfinished attached .deferred batch
      generalize c.sendMessages s .deferred batch = c' at utters ⊢
      cases utters with
      | on x es comes quiet =>
        obtain ⟨qs, whole, more, utters, coded', order⟩ :=
          ih (c := c.beside x es) unfinished alive attached behind ends'
        refine ⟨ps ++ qs, whole, done ++ more, utters.behind comes quiet, ⟨?_, ?_, fun h => ?_⟩, ?_⟩
        · simpa using List.rel_append coded.codes coded'.codes
        · rw [coded.whole rfl, handedOver_yielded]
          exact (List.prefix_append_right_inj batch).mpr coded'.sub
        · rw [coded.whole rfl, coded'.whole h, handedOver_yielded]
        · rw [List.map_append, InboundPhase.follow_append, follow_messages kinds]
          simpa [phaseBehind, WriterEvent.isEnd] using order
      | off status x es comes =>
        rw [List.foldl_fixed' (onWriterEvent_of_finished (finished_terminate _ _ _))]
        refine ⟨ps, false, done, .off status x es comes, ⟨coded.codes, ?_, by simp⟩, follow_messages kinds⟩
        rw [handedOver_yielded]
        exact coded.sub.trans (List.prefix_append _ _)
    | terminated reason =>
      obtain rfl : rest = [] := by
        cases rest with
        | nil => rfl
        | cons f rest => simpa [WriterEvent.isEnd] using first f (by simp)
      obtain rfl : reason = none := by simpa using ends (.terminated reason) (by simp) rfl
      rw [onWriterEvent, if_pos alive, List.foldl_nil]
      obtain ⟨ps, whole, utters, coded, order⟩ := utters_end (s := s) unfinished attached .deferred
      exact ⟨ps, whole, [], utters, coded, order.trans (by cases whole <;> rfl)⟩
end Call

end CallLifecycle.Client
