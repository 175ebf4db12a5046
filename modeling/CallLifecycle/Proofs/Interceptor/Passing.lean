import CallLifecycle.Interceptor
import Mathlib.Data.List.Forall2

/-!
# What comes out of a pipeline

* `rel_of_passLooks`, `rel_response` — what every look keeps of a part, the whole passage keeps;
* `Pipeline.KeepsResponseKinds`, `Pipeline.PassesMessages`, `Pipeline.MakesNoMessages`, `Pipeline.RewritesNoResponses`
  — what interceptors may promise of response parts;
* `Pipeline.KeepsRequestKinds`, `Pipeline.RewritesNoMessages`, `Comes`, `Arrives` — the same of request parts, and what
  comes out of a pipeline;
* `Pipeline.OnlyWatches` — interceptors that leave all parts as they are;
* `Emerges` — a part that is said, and what of it reaches the transport.
-/

namespace CallLifecycle

section Looks

variable {σ P : Type}

/-- What holds between a part before and behind a look that lets it pass, and goes on from look to
look, holds of a passage that was not stopped. -/
theorem rel_of_passLooks {r : P → P → Prop} (refl : ∀ p, r p p)
    (trans : ∀ p q t, r p q → r q t → r p t) {looks : List (Look σ P × (P → Visit))}
    (each : ∀ look ∈ looks, ∀ p x, (look.1 p x).1.2 = none → r p (look.1 p x).1.1) (p : P) (x : σ)
    (passed : (passLooks looks p x).1.rejection = none) : r p (passLooks looks p x).1.part := by
  induction looks generalizing p x with
  | nil => exact refl p
  | cons look rest ih =>
    rcases hl : look.1 p x with ⟨⟨q, _ | status⟩, y⟩
    · have first := each look (by simp) p x (by simp [hl])
      have others := ih (fun l hl => each l (by simp [hl])) q y (by simpa [passLooks, hl] using passed)
      simp only [hl] at first
      simpa [passLooks, hl] using trans p q _ first others
    · simp [passLooks, hl] at passed

/-- A part that every look leaves as it is comes out as it is. -/
theorem passLooks_of_unchanged {looks : List (Look σ P × (P → Visit))} {p : P}
    (each : ∀ look ∈ looks, ∀ x, (look.1 p x).1 = (p, none)) (x : σ) :
    (passLooks looks p x).1.rejection = none ∧ (passLooks looks p x).1.part = p := by
  induction looks generalizing x with
  | nil => exact ⟨rfl, rfl⟩
  | cons look rest ih =>
    have first := each look (by simp) x
    have others := ih (fun l hl => each l (by simp [hl])) (look.1 p x).2
    rcases hl : look.1 p x with ⟨⟨q, _ | status⟩, y⟩ <;> simp only [hl] at first others
    · obtain ⟨rfl, -⟩ := Prod.mk.inj first
      simpa [passLooks, hl] using others
    · cases first

end Looks

namespace Pipeline

variable {σ : Type}

/-- The interceptors may rewrite or reject a response part, but what they let pass keeps its kind. -/
def KeepsResponseKinds (l : Pipeline σ) : Prop :=
  ∀ i ∈ l, ∀ look, i.response = some look →
    ∀ p x, (look p x).1.2 = none → (look p x).1.1.kind = p.kind

def PassesMessages (l : Pipeline σ) : Prop :=
  ∀ i ∈ l, ∀ look, i.response = some look →
    ∀ p x, p.kind = .message → (look p x).1 = (p, none)

def MakesNoMessages (l : Pipeline σ) : Prop :=
  ∀ i ∈ l, ∀ look, i.response = some look →
    ∀ p x, p.kind ≠ .message → (look p x).1.2 = none → (look p x).1.1.kind ≠ .message

/-- The interceptors may reject a response part, but what they let pass they leave as it is. -/
def RewritesNoResponses (l : Pipeline σ) : Prop :=
  ∀ i ∈ l, ∀ look, i.response = some look → ∀ p x, (look p x).1.2 = none → (look p x).1.1 = p

def RejectsEnd (l : Pipeline σ) (status : Status) (trailers : Metadata) (r : Status) : Prop :=
  ∃ x, (l.response (.close status trailers) x).1.rejection = some r

theorem exists_of_mem_responseLooks {l : Pipeline σ}
    {look : Look σ ResponsePart × (ResponsePart → Visit)}
    (h : look ∈ l.reverse.filterMap Interceptor.responseLook) :
    ∃ i ∈ l, i.response = some look.1 := by
  simp only [List.mem_filterMap, List.mem_reverse, Interceptor.responseLook, Option.map_eq_some_iff] at h
  obtain ⟨i, hi, f, hf, rfl⟩ := h
  exact ⟨i, hi, hf⟩

/-- What every interceptor keeps of a response part, the pipeline keeps. -/
theorem rel_response {l : Pipeline σ} {r : ResponsePart → ResponsePart → Prop} (refl : ∀ p, r p p)
    (trans : ∀ p q t, r p q → r q t → r p t)
    (each : ∀ i ∈ l, ∀ look, i.response = some look → ∀ p x, (look p x).1.2 = none → r p (look p x).1.1)
    (p : ResponsePart) (x : σ) (passed : (l.response p x).1.rejection = none) :
    r p (l.response p x).1.part := by
  refine rel_of_passLooks refl trans (fun look hlook q y => ?_) p x passed
  obtain ⟨i, hi, hf⟩ := exists_of_mem_responseLooks hlook
  exact each i hi _ hf q y

theorem kind_response {l : Pipeline σ} (keeps : l.KeepsResponseKinds) (p : ResponsePart) (x : σ)
    (passed : (l.response p x).1.rejection = none) : (l.response p x).1.part.kind = p.kind :=
  rel_response (r := fun p q => q.kind = p.kind) (fun _ => rfl) (fun _ _ _ h k => k.trans h)
    keeps p x passed

theorem response_passed {l : Pipeline σ} (leaves : l.RewritesNoResponses) (p : ResponsePart) (x : σ)
    (passed : (l.response p x).1.rejection = none) : (l.response p x).1.part = p :=
  rel_response (r := fun p q => q = p) (fun _ => rfl) (fun _ _ _ h k => k.trans h) leaves p x passed

theorem RewritesNoResponses.keepsResponseKinds {l : Pipeline σ} (leaves : l.RewritesNoResponses) :
    l.KeepsResponseKinds :=
  fun i hi look hl p x passed => by rw [leaves i hi look hl p x passed]

theorem response_message {l : Pipeline σ} (passes : l.PassesMessages) {p : ResponsePart}
    (hp : p.kind = .message) (x : σ) :
    (l.response p x).1.rejection = none ∧ (l.response p x).1.part = p := by
  refine passLooks_of_unchanged (fun look hlook y => ?_) x
  obtain ⟨i, hi, hf⟩ := exists_of_mem_responseLooks hlook
  exact passes i hi _ hf p y hp

theorem response_other {l : Pipeline σ} (makes : l.MakesNoMessages) {p : ResponsePart}
    (hp : p.kind ≠ .message) (x : σ) (passed : (l.response p x).1.rejection = none) :
    (l.response p x).1.part.kind ≠ .message :=
  rel_response (r := fun p q => p.kind ≠ .message → q.kind ≠ .message) (fun _ h => h)
    (fun _ _ _ h k hp => k (h hp)) (fun i hi look hl p x hx hp => makes i hi look hl p x hp hx)
    p x passed hp

end Pipeline

/-! ## request parts -/

namespace Pipeline

variable {σ : Type}

/-- The interceptors may rewrite or reject a request part, but what they let pass keeps its kind. -/
def KeepsRequestKinds (l : Pipeline σ) : Prop :=
  ∀ i ∈ l, ∀ look, i.request = some look → ∀ p x, (look p x).1.2 = none → (look p x).1.1.kind = p.kind

/-- The interceptors may reject a request message, but what they let pass they leave as it is. -/
def RewritesNoMessages (l : Pipeline σ) : Prop :=
  ∀ i ∈ l, ∀ look, i.request = some look → ∀ p x, p.kind = .message → (look p x).1.2 = none → (look p x).1.1 = p

theorem exists_of_mem_requestLooks {l : Pipeline σ} {look : Look σ RequestPart × (RequestPart → Visit)}
    (h : look ∈ l.filterMap Interceptor.requestLook) : ∃ i ∈ l, i.request = some look.1 := by
  simp only [List.mem_filterMap, Interceptor.requestLook, Option.map_eq_some_iff] at h
  obtain ⟨i, hi, f, hf, rfl⟩ := h
  exact ⟨i, hi, hf⟩

/-- What every interceptor keeps of a request part, the pipeline keeps. -/
theorem rel_request {l : Pipeline σ} {r : RequestPart → RequestPart → Prop} (refl : ∀ p, r p p)
    (trans : ∀ p q t, r p q → r q t → r p t)
    (each : ∀ i ∈ l, ∀ look, i.request = some look → ∀ p x, (look p x).1.2 = none → r p (look p x).1.1)
    (p : RequestPart) (x : σ) (passed : (l.request p x).1.rejection = none) : r p (l.request p x).1.part := by
  refine rel_of_passLooks refl trans (fun look hlook q y => ?_) p x passed
  obtain ⟨i, hi, hf⟩ := exists_of_mem_requestLooks hlook
  exact each i hi _ hf q y

theorem kind_request {l : Pipeline σ} (keeps : l.KeepsRequestKinds) (p : RequestPart) (x : σ)
    (passed : (l.request p x).1.rejection = none) : (l.request p x).1.part.kind = p.kind :=
  rel_request (r := fun p q => q.kind = p.kind) (fun _ => rfl) (fun _ _ _ h k => k.trans h) keeps p x passed

theorem request_message {l : Pipeline σ} (leaves : l.RewritesNoMessages) {p : RequestPart} (hp : p.kind = .message)
    (x : σ) (passed : (l.request p x).1.rejection = none) : (l.request p x).1.part = p :=
  rel_request (r := fun p q => p.kind = .message → q = p) (fun _ _ => rfl)
    (fun _ _ _ h k hp => (k ((h hp).symm ▸ hp)).trans (h hp))
    (fun i hi look hl p x hx hp => leaves i hi look hl p x hp hx) p x passed hp

end Pipeline

/-- A request part comes out of the pipeline as another. -/
def Comes {σ : Type} (l : Pipeline σ) (p q : RequestPart) : Prop :=
  ∃ x, (l.request p x).1.rejection = none ∧ (l.request p x).1.part = q

theorem Comes.eq_of_message {σ : Type} {l : Pipeline σ} (leaves : l.RewritesNoMessages) {p q : RequestPart}
    (h : Comes l p q) (hp : p.kind = .message) : q = p := by
  obtain ⟨x, passed, rfl⟩ := h
  exact Pipeline.request_message leaves hp x passed

theorem Comes.kind_eq {σ : Type} {l : Pipeline σ} (keeps : l.KeepsRequestKinds) {p q : RequestPart}
    (h : Comes l p q) : q.kind = p.kind := by
  obtain ⟨x, passed, rfl⟩ := h
  exact Pipeline.kind_request keeps p x passed

def Arrives {σ : Type} (l : Pipeline σ) (p q : ResponsePart) : Prop :=
  ∃ x, (l.response p x).1.rejection = none ∧ (l.response p x).1.part = q

theorem Arrives.kind_eq {σ : Type} {l : Pipeline σ} (keeps : l.KeepsResponseKinds) {p q : ResponsePart}
    (h : Arrives l p q) : q.kind = p.kind := by
  obtain ⟨x, passed, rfl⟩ := h
  exact Pipeline.kind_response keeps p x passed

theorem map_eq_of_forall₂ {α β γ : Type} {r : α → β → Prop} {f : α → γ} {g : β → γ}
    (each : ∀ a b, r a b → g b = f a) {as : List α} {bs : List β} (h : List.Forall₂ r as bs) :
    bs.map g = as.map f := by
  induction h with
  | nil => rfl
  | cons first _ ih => rw [List.map_cons, List.map_cons, each _ _ first, ih]

theorem kinds_of_comes {σ : Type} {l : Pipeline σ} (keeps : l.KeepsRequestKinds) {ps qs : List RequestPart}
    (h : List.Forall₂ (Comes l) ps qs) : qs.map RequestPart.kind = ps.map RequestPart.kind :=
  map_eq_of_forall₂ (fun _ _ comes => comes.kind_eq keeps) h

theorem kinds_of_arrives {σ : Type} {l : Pipeline σ} (keeps : l.KeepsResponseKinds) {ps qs : List ResponsePart}
    (h : List.Forall₂ (Arrives l) ps qs) : qs.map ResponsePart.kind = ps.map ResponsePart.kind :=
  map_eq_of_forall₂ (fun _ _ arrives => arrives.kind_eq keeps) h

/-! ## what is said and what is sent -/

/-- What becomes of a response part that is sent: it passes the pipeline. The end of a call that is
rejected is replaced by the rejection. -/
inductive Emerges {σ : Type} (l : Pipeline σ) : ResponsePart → ResponsePart → Prop
  | passed (p : ResponsePart) (x : σ) (h : (l.response p x).1.rejection = none) :
    Emerges l p (l.response p x).1.part
  | replaced (status : Status) (trailers : Metadata) (r : Status) (x : σ)
    (h : (l.response (.close status trailers) x).1.rejection = some r) :
    Emerges l (.close status trailers) (.close r {})

section Emerges

variable {σ : Type} {l : Pipeline σ} {p q : ResponsePart}

theorem Emerges.kind_eq (keeps : l.KeepsResponseKinds) (h : Emerges l p q) : q.kind = p.kind := by
  cases h with
  | passed _ x h => exact Pipeline.kind_response keeps p x h
  | replaced => rfl

theorem Emerges.eq_of_message (passes : l.PassesMessages) (h : Emerges l p q)
    (hp : p.kind = .message) : q = p := by
  cases h with
  | passed _ x => exact (Pipeline.response_message passes hp x).2
  | replaced => cases hp

theorem Emerges.not_message (makes : l.MakesNoMessages) (h : Emerges l p q)
    (hp : p.kind ≠ .message) : q.kind ≠ .message := by
  cases h with
  | passed _ x h => exact Pipeline.response_other makes hp x h
  | replaced => exact hp

theorem Emerges.cases_of_leaves (leaves : l.RewritesNoResponses) (h : Emerges l p q) :
    q = p ∨ ∃ status trailers r, p = .close status trailers ∧ l.RejectsEnd status trailers r ∧ q = .close r {} := by
  cases h with
  | passed _ x h => exact .inl (Pipeline.response_passed leaves p x h)
  | replaced status trailers r x h => exact .inr ⟨status, trailers, r, rfl, ⟨x, h⟩, rfl⟩

end Emerges

/-! ## interceptors that only watch -/

/-- The interceptors leave every part as it is, in both directions. -/
def Pipeline.OnlyWatches {σ : Type} (l : Pipeline σ) : Prop :=
  ∀ i ∈ l, (∀ look, i.request = some look → ∀ p x, (look p x).1 = (p, none)) ∧
    ∀ look, i.response = some look → ∀ p x, (look p x).1 = (p, none)

namespace Pipeline.OnlyWatches

variable {σ : Type} {l : Pipeline σ}

theorem request (h : l.OnlyWatches) (p : RequestPart) (x : σ) :
    (l.request p x).1.rejection = none ∧ (l.request p x).1.part = p := by
  refine passLooks_of_unchanged (fun look hlook y => ?_) x
  obtain ⟨i, hi, hf⟩ := exists_of_mem_requestLooks hlook
  exact (h i hi).1 _ hf p y

theorem response (h : l.OnlyWatches) (p : ResponsePart) (x : σ) :
    (l.response p x).1.rejection = none ∧ (l.response p x).1.part = p := by
  refine passLooks_of_unchanged (fun look hlook y => ?_) x
  obtain ⟨i, hi, hf⟩ := exists_of_mem_responseLooks hlook
  exact (h i hi).2 _ hf p y

theorem rewritesNoResponses (h : l.OnlyWatches) : l.RewritesNoResponses :=
  fun i hi look hl p x _ => by rw [(h i hi).2 look hl p x]

theorem keepsResponseKinds (h : l.OnlyWatches) : l.KeepsResponseKinds := h.rewritesNoResponses.keepsResponseKinds

theorem not_rejectsEnd (h : l.OnlyWatches) (status : Status) (trailers : Metadata) (r : Status) :
    ¬ l.RejectsEnd status trailers r := by
  rintro ⟨x, rejection⟩
  simp [(h.response _ x).1] at rejection

theorem eq_of_comes (h : l.OnlyWatches) {p q : RequestPart} (comes : Comes l p q) : q = p := by
  obtain ⟨x, -, rfl⟩ := comes
  exact (h.request p x).2

theorem eq_of_arrives (h : l.OnlyWatches) {p q : ResponsePart} (arrives : Arrives l p q) : q = p := by
  obtain ⟨x, -, rfl⟩ := arrives
  exact (h.response p x).2

theorem eq_of_emerges (h : l.OnlyWatches) {p q : ResponsePart} (emerges : Emerges l p q) : q = p := by
  cases emerges with
  | passed _ x => exact (h.response p x).2
  | replaced status trailers r x rejection => simp [(h.response _ x).1] at rejection

theorem all_of_comes (h : l.OnlyWatches) {ps qs : List RequestPart} (comes : List.Forall₂ (Comes l) ps qs) :
    qs = ps := by
  simpa using map_eq_of_forall₂ (f := id) (g := id) (fun _ _ => h.eq_of_comes) comes

theorem all_of_arrives (h : l.OnlyWatches) {ps qs : List ResponsePart} (arrives : List.Forall₂ (Arrives l) ps qs) :
    qs = ps := by
  simpa using map_eq_of_forall₂ (f := id) (g := id) (fun _ _ => h.eq_of_arrives) arrives

theorem all_of_emerges (h : l.OnlyWatches) {ps qs : List ResponsePart} (emerges : List.Forall₂ (Emerges l) ps qs) :
    qs = ps := by
  simpa using map_eq_of_forall₂ (f := id) (g := id) (fun _ _ => h.eq_of_emerges) emerges

end Pipeline.OnlyWatches

end CallLifecycle
