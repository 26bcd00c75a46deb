import Mathlib.Algebra.Order.BigOperators.Group.Finset
import Rsva11001.Verify.Handlers

/-!
# What the adapter does for its clients

The adapter as its clients see it: a board with the last image of each camera, before which the
requests for the next image of a camera wait. `Board.Step` lists what may happen on it and
`Board.Run` what may have happened. Over every run requests are neither lost nor answered twice
(`Run.conserved`), those that waited are answered with an image that came later (`Run.answered`),
and images come from the camera before the slot they are in (`Run.images`).

`Verify/Clients.lean` shows that the reactor does no more than this.
-/

namespace Rsva11001

open Lib

/-! ## The history -/

/-- The requests handed over, in order. -/
def handed (t : List Event) : List Nat :=
  t.filterMap fun
    | .handed id => some id
    | _ => none

/-- The requests put in a queue, in order. -/
def queuedIds (t : List Event) : List Nat :=
  t.filterMap fun
    | .queued _ id _ => some id
    | _ => none

/-- The requests answered, in order. -/
def answered (t : List Event) : List Nat :=
  t.filterMap fun
    | .response id _ => some id
    | _ => none

theorem handed_append (t t' : List Event) : handed (t ++ t') = handed t ++ handed t' :=
  List.filterMap_append

theorem queuedIds_append (t t' : List Event) :
    queuedIds (t ++ t') = queuedIds t ++ queuedIds t' :=
  List.filterMap_append

theorem answered_append (t t' : List Event) : answered (t ++ t') = answered t ++ answered t' :=
  List.filterMap_append

theorem mem_handed {t : List Event} {id : Nat} : id ∈ handed t ↔ .handed id ∈ t := by
  unfold handed
  rw [List.mem_filterMap]
  constructor
  · rintro ⟨o, ho, h⟩
    cases o <;> first | cases h; exact ho | cases h
  · exact fun h => ⟨_, h, rfl⟩

theorem mem_queuedIds {t : List Event} {i : Slot} {id k : Nat} (h : .queued i id k ∈ t) :
    id ∈ queuedIds t :=
  List.mem_filterMap.2 ⟨_, h, rfl⟩

/-- Nothing about requests is in the entries of the other kinds. -/
theorem requests_eq_nil {t : List Event} (h : ∀ o ∈ t, o.kind ≠ .client) :
    handed t = [] ∧ queuedIds t = [] ∧ answered t = [] := by
  refine ⟨?_, ?_, ?_⟩ <;>
  · refine List.filterMap_eq_nil_iff.2 fun o ho => ?_
    have := h o ho
    cases o <;> first | rfl | exact absurd rfl this

/-- An image has been stored for the camera. -/
def Event.isStored (i : Slot) : Event → Bool
  | .stored j _ => j = i
  | _ => false

/-- The requests put in the queue of the camera since an image was last stored for it, in order. -/
def waitingSince (i : Slot) (t : List Event) : List Nat :=
  (since (Event.isStored i) t).filterMap fun
    | .queued j id _ => if j = i then some id else none
    | _ => none

theorem waitingSince_append {i : Slot} {t new : List Event} (h : ∀ o ∈ new, o.isStored i = false) :
    waitingSince i (t ++ new) = waitingSince i t ++ waitingSince i new := by
  have hnew : since (Event.isStored i) new = new := since_append (t := []) h
  unfold waitingSince
  rw [since_append h, List.filterMap_append, hnew]

/-- An image that is stored for a camera ends the waiting for it. -/
theorem waitingSince_stored {i : Slot} {t : List Event} (image : List UInt8) :
    waitingSince i (t ++ [.stored i image]) = [] := by
  unfold waitingSince
  rw [since_concat (by simp [Event.isStored])]
  rfl

/-- Entries of the other kinds do not change who waits. -/
theorem waitingSince_quiet {i : Slot} {t new : List Event} (h : ∀ o ∈ new, o.kind ≠ .client) :
    waitingSince i (t ++ new) = waitingSince i t := by
  have hother : ∀ o ∈ new, o.isStored i = false := by
    intro o ho
    have := h o ho
    cases o <;> first | rfl | exact absurd rfl this
  have hnone : waitingSince i new = [] := by
    refine List.filterMap_eq_nil_iff.2 fun o ho => ?_
    have := h o ((since_suffix _ new).subset ho)
    cases o <;> first | rfl | exact absurd rfl this
  rw [waitingSince_append hother, hnone, List.append_nil]

/-! ## The board -/

/-- Of `n` cameras the one at `j` has its turn before the one at `i`. -/
def Before (n : Nat) (j i : Slot) : Prop :=
  j.val < n ∧ i.val = (j.val + 1) % n

/-- The last image of each camera, and the requests that wait for the next. -/
structure Board where
  image : Slot → Option (List UInt8)
  waiting : Slot → List SgConnection

/-- A request is answered with an image. -/
def answerWith (image : List UInt8) (conn : SgConnection) : Event :=
  .response conn.id (.jpeg (jpegHeaders image.length conn.httpHost) image image.length)

/-- Answers answer those they are for, and nothing else. -/
theorem requests_answers (image : List UInt8) (conns : List SgConnection) :
    handed (conns.map (answerWith image)) = [] ∧ queuedIds (conns.map (answerWith image)) = [] ∧
      answered (conns.map (answerWith image)) = conns.map SgConnection.id := by
  unfold handed queuedIds answered
  refine ⟨?_, ?_, ?_⟩
  · rw [List.filterMap_map]
    exact List.filterMap_eq_nil_iff.2 fun _ _ => rfl
  · rw [List.filterMap_map]
    exact List.filterMap_eq_nil_iff.2 fun _ _ => rfl
  · rw [List.filterMap_map, ← List.filterMap_eq_map]
    rfl

namespace Board

def empty : Board where
  image := fun _ => none
  waiting := fun _ => []

/-- A request goes to the end of a queue. -/
def enqueue (b : Board) (i : Slot) (conn : SgConnection) : Board :=
  { b with waiting := Function.update b.waiting i (b.waiting i ++ [conn]) }

/-- An image is put up, and those who waited for it leave. -/
def publish (b : Board) (i : Slot) (image : List UInt8) : Board where
  image := Function.update b.image i (some image)
  waiting := Function.update b.waiting i []

/-- What may happen after the history `t` on a board for `n` cameras, and what is then added to
the history. -/
inductive Step (n : Nat) (t : List Event) (b : Board) : List Event → Board → Prop
  | quiet {new : List Event} (hnew : ∀ o ∈ new, o.kind ≠ .client) : Step n t b new b
  | notFound (conn : SgConnection) :
      Step n t b [.handed conn.id, .response conn.id .notFound] b
  | waits {i : Slot} {conn : SgConnection} (hi : i.val < n)
      (hroom : (b.waiting i).length < MAX_PENDING_REQUESTS) :
      Step n t b [.handed conn.id, .routed i conn.id,
        .queued i conn.id (b.waiting i).length] (b.enqueue i conn)
  | noImage {i : Slot} {conn : SgConnection} (hi : i.val < n) (himage : b.image i = none) :
      Step n t b [.handed conn.id, .routed i conn.id, .response conn.id .notFound] b
  | sends {i : Slot} {conn : SgConnection} {image : List UInt8} (hi : i.val < n)
      (himage : b.image i = some image) :
      Step n t b [.handed conn.id, .routed i conn.id, answerWith image conn] b
  | publishes {before after : List Event} {i j : Slot} {image : List UInt8}
      (hbefore : ∀ o ∈ before, o.kind ≠ .client) (hafter : ∀ o ∈ after, o.kind ≠ .client)
      (hsize : image.length ≤ IMAGE_BUFFER_SIZE) (hturn : Before n j i)
      (haccepted : .accepted j image ∈ t ++ before) :
      Step n t b (before ++ .stored i image :: (b.waiting i).map (answerWith image) ++ after)
        (b.publish i image)

/-- What may have happened when the board has come to be `b`. -/
inductive Run (n : Nat) : List Event → Board → Prop
  | start : Run n [] empty
  | next {t new : List Event} {b b' : Board} (h : Run n t b) (hs : Step n t b new b') :
      Run n (t ++ new) b'

section Update

variable (b : Board) {i j : Slot} (conn : SgConnection) (image : List UInt8)

@[simp] theorem waiting_enqueue_self :
    (b.enqueue i conn).waiting i = b.waiting i ++ [conn] :=
  Function.update_self _ _ _

theorem waiting_enqueue_of_ne (h : j ≠ i) : (b.enqueue i conn).waiting j = b.waiting j :=
  Function.update_of_ne h _ _

@[simp] theorem waiting_publish_self : (b.publish i image).waiting i = [] :=
  Function.update_self _ _ _

theorem waiting_publish_of_ne (h : j ≠ i) : (b.publish i image).waiting j = b.waiting j :=
  Function.update_of_ne h _ _

@[simp] theorem image_publish_self : (b.publish i image).image i = some image :=
  Function.update_self _ _ _

theorem image_publish_of_ne (h : j ≠ i) : (b.publish i image).image j = b.image j :=
  Function.update_of_ne h _ _

end Update

variable {n : Nat} {t new : List Event} {b b' : Board}

/-! ## Requests are conserved -/

/-- How often a request is in the queues. -/
def waitingCount (b : Board) (id : Nat) : Nat :=
  ∑ i, ((b.waiting i).map SgConnection.id).count id

/-- What replacing one entry of a table does to a sum over its entries. -/
theorem sum_update {β : Type} (f : β → Nat) (w : Slot → β) (i : Slot) (b : β) :
    (∑ j, f (Function.update w i b j)) + f (w i) = (∑ j, f (w j)) + f b := by
  rw [← Finset.add_sum_erase _ _ (Finset.mem_univ i),
    ← Finset.add_sum_erase Finset.univ (fun j => f (w j)) (Finset.mem_univ i)]
  have hrest : ∑ j ∈ Finset.univ.erase i, f (Function.update w i b j) =
      ∑ j ∈ Finset.univ.erase i, f (w j) := by
    apply Finset.sum_congr rfl
    intro j hj
    rw [Function.update_of_ne (Finset.ne_of_mem_erase hj)]
  rw [hrest, Function.update_self]
  omega

theorem waitingCount_enqueue (b : Board) (i : Slot) (conn : SgConnection) (id : Nat) :
    (b.enqueue i conn).waitingCount id = b.waitingCount id + [conn.id].count id := by
  have := sum_update (fun l => (l.map SgConnection.id).count id) b.waiting i
    (b.waiting i ++ [conn])
  rw [List.map_append, List.count_append] at this
  simp only [List.map_cons, List.map_nil] at this
  simp only [waitingCount, enqueue]
  omega

theorem waitingCount_publish (b : Board) (i : Slot) (image : List UInt8) (id : Nat) :
    (b.publish i image).waitingCount id + ((b.waiting i).map SgConnection.id).count id =
      b.waitingCount id := by
  have := sum_update (fun l => (l.map SgConnection.id).count id) b.waiting i []
  simpa [waitingCount, publish] using this

/-- A step neither loses a request nor answers one twice. -/
theorem Step.conserved (h : Step n t b new b') (id : Nat) :
    (handed new).count id + b.waitingCount id = (answered new).count id + b'.waitingCount id := by
  cases h with
  | quiet hnew =>
    obtain ⟨hh, -, ha⟩ := requests_eq_nil hnew
    rw [hh, ha]
  | notFound | noImage | sends => rfl
  | @waits i conn =>
    have hhanded : handed [.handed conn.id, .routed i conn.id,
        .queued i conn.id (b.waiting i).length] = [conn.id] := rfl
    have hanswered : answered [.handed conn.id, .routed i conn.id,
        .queued i conn.id (b.waiting i).length] = [] := rfl
    rw [hhanded, hanswered, waitingCount_enqueue, List.count_nil]
    omega
  | @publishes before after i j image hbefore hafter =>
    obtain ⟨hh, -, ha⟩ := requests_eq_nil hbefore
    obtain ⟨hh', -, ha'⟩ := requests_eq_nil hafter
    obtain ⟨hh'', -, ha''⟩ := requests_answers image (b.waiting i)
    have hstored : handed [.stored i image] = [] ∧ answered [.stored i image] = [] := ⟨rfl, rfl⟩
    have := b.waitingCount_publish i image id
    rw [← List.singleton_append]
    simp only [handed_append, answered_append, hh, ha, hh', ha', hh'', ha'', hstored.1, hstored.2,
      List.nil_append, List.append_nil, List.count_nil]
    omega

theorem Run.conserved (h : Run n t b) (id : Nat) :
    (handed t).count id = (answered t).count id + b.waitingCount id := by
  induction h with
  | start => simp [handed, answered, waitingCount, empty]
  | next _ hs ih =>
    have := hs.conserved id
    rw [handed_append, answered_append, List.count_append, List.count_append]
    omega

/-! ## Queues -/

/-- A request is queued when it is handed over. -/
theorem Step.queued (h : Step n t b new b') : (queuedIds new).Sublist (handed new) := by
  cases h with
  | quiet hnew =>
    rw [(requests_eq_nil hnew).2.1]
    exact List.nil_sublist _
  | notFound | noImage | sends => exact List.nil_sublist _
  | waits => exact List.Sublist.refl _
  | @publishes before after i j image hbefore hafter =>
    have hstored : queuedIds [.stored i image] = [] := rfl
    rw [← List.singleton_append]
    simp only [queuedIds_append, (requests_eq_nil hbefore).2.1, (requests_eq_nil hafter).2.1,
      (requests_answers image (b.waiting i)).2.1, hstored, List.append_nil]
    exact List.nil_sublist _

theorem Run.queued (h : Run n t b) : (queuedIds t).Sublist (handed t) := by
  induction h with
  | start => exact List.Sublist.refl _
  | next _ hs ih =>
    rw [queuedIds_append, handed_append]
    exact ih.append hs.queued

theorem mem_enqueue {i j : Slot} {conn c : SgConnection} (h : c ∈ (b.enqueue i conn).waiting j) :
    c ∈ b.waiting j ∨ j = i ∧ c = conn := by
  by_cases hj : j = i
  · subst hj
    rw [waiting_enqueue_self] at h
    rcases List.mem_append.1 h with h | h
    · exact .inl h
    · exact .inr ⟨rfl, List.mem_singleton.1 h⟩
  · rw [b.waiting_enqueue_of_ne conn hj] at h
    exact .inl h

theorem mem_publish {i j : Slot} {image : List UInt8} {c : SgConnection}
    (h : c ∈ (b.publish i image).waiting j) : c ∈ b.waiting j := by
  by_cases hj : j = i
  · subst hj
    rw [waiting_publish_self] at h
    cases h
  · rwa [b.waiting_publish_of_ne image hj] at h

/-- A request that waits for an image has been routed to its camera and put in its queue. -/
theorem Run.waiting_queued (h : Run n t b) : ∀ {i : Slot} {conn : SgConnection},
    conn ∈ b.waiting i → .routed i conn.id ∈ t ∧ ∃ k, .queued i conn.id k ∈ t := by
  induction h with
  | start => rintro i conn ⟨⟩
  | @next t new b b' _ hs ih =>
    intro i conn hmem
    have hold : conn ∈ b.waiting i →
        .routed i conn.id ∈ t ++ new ∧ ∃ k, .queued i conn.id k ∈ t ++ new := by
      intro hw
      obtain ⟨hr, k, hk⟩ := ih hw
      exact ⟨List.mem_append_left _ hr, k, List.mem_append_left _ hk⟩
    cases hs with
    | quiet | notFound | noImage | sends => exact hold hmem
    | publishes => exact hold (mem_publish hmem)
    | waits =>
      rcases mem_enqueue hmem with hw | ⟨rfl, rfl⟩
      · exact hold hw
      · refine ⟨List.mem_append_right _ (by simp), (b.waiting i).length, ?_⟩
        exact List.mem_append_right _ (by simp)

/-- The queues have a bounded length. -/
theorem Run.length_le (h : Run n t b) (i : Slot) :
    (b.waiting i).length ≤ MAX_PENDING_REQUESTS := by
  induction h with
  | start => exact Nat.zero_le _
  | @next t new b b' _ hs ih =>
    cases hs with
    | quiet | notFound | noImage | sends => exact ih
    | @waits j conn _ hroom =>
      by_cases hi : i = j
      · subst hi
        rw [waiting_enqueue_self, List.length_append]
        exact hroom
      · rwa [b.waiting_enqueue_of_ne conn hi]
    | @publishes _ _ j _ image =>
      by_cases hi : i = j
      · subst hi
        rw [waiting_publish_self]
        exact Nat.zero_le _
      · rwa [b.waiting_publish_of_ne image hi]

/-- What publishing an image adds for clients. -/
theorem mem_publishes {before after : List Event} {i : Slot} {image : List UInt8}
    {conns : List SgConnection} {o : Event} (hbefore : ∀ o ∈ before, o.kind ≠ .client)
    (hafter : ∀ o ∈ after, o.kind ≠ .client) (hkind : o.kind = .client)
    (ho : o ∈ before ++ .stored i image :: conns.map (answerWith image) ++ after) :
    o = .stored i image ∨ ∃ conn ∈ conns, o = answerWith image conn := by
  rcases List.mem_append.1 ho with ho | ho
  · rcases List.mem_append.1 ho with ho | ho
    · exact absurd hkind (hbefore o ho)
    · rcases List.mem_cons.1 ho with rfl | ho
      · exact .inl rfl
      · obtain ⟨conn, hconn, rfl⟩ := List.mem_map.1 ho
        exact .inr ⟨conn, hconn, rfl⟩
  · exact absurd hkind (hafter o ho)

/-- Answers do not change who waits. -/
theorem waitingSince_answers {i : Slot} {t : List Event} (image : List UInt8)
    (conns : List SgConnection) :
    waitingSince i (t ++ conns.map (answerWith image)) = waitingSince i t := by
  have hother : ∀ o ∈ conns.map (answerWith image), o.isStored i = false := by
    simp [answerWith, Event.isStored]
  have hnone : waitingSince i (conns.map (answerWith image)) = [] := by
    refine List.filterMap_eq_nil_iff.2 fun o ho => ?_
    obtain ⟨conn, -, rfl⟩ := List.mem_map.1 ((since_suffix _ _).subset ho)
    rfl
  rw [waitingSince_append hother, hnone, List.append_nil]

/-- Who waits for an image of a camera after a step is who has been queued for it since an image
was last stored for it, when this was so before the step. -/
theorem Step.waiting_since (h : Step n t b new b') {i : Slot}
    (ht : (b.waiting i).map SgConnection.id = waitingSince i t) :
    (b'.waiting i).map SgConnection.id = waitingSince i (t ++ new) := by
  cases h with
  | quiet hnew => rw [waitingSince_quiet hnew, ht]
  | notFound | noImage | sends =>
    rw [waitingSince_append (by simp [Event.isStored, answerWith]), ht]
    exact (List.append_nil _).symm
  | @waits j conn =>
    rw [waitingSince_append (by simp [Event.isStored])]
    by_cases hi : i = j
    · subst hi
      rw [waiting_enqueue_self, List.map_append, ht]
      simp [waitingSince, since, Event.isStored]
    · rw [b.waiting_enqueue_of_ne conn hi, ht]
      simp [waitingSince, since, Event.isStored, Ne.symm hi]
  | @publishes before after j k image hbefore hafter =>
    have hsplit :
        t ++ (before ++ .stored j image :: (b.waiting j).map (answerWith image) ++ after) =
        t ++ before ++ [.stored j image] ++ (b.waiting j).map (answerWith image) ++ after := by
      simp
    rw [hsplit, waitingSince_quiet hafter, waitingSince_answers]
    by_cases hi : i = j
    · subst hi
      rw [waiting_publish_self, waitingSince_stored]
      rfl
    · rw [b.waiting_publish_of_ne image hi,
        waitingSince_append (by simp [Event.isStored, Ne.symm hi]), waitingSince_quiet hbefore, ht]
      simp [waitingSince, since, Event.isStored, Ne.symm hi]

theorem Run.waiting_since (h : Run n t b) (i : Slot) :
    (b.waiting i).map SgConnection.id = waitingSince i t := by
  induction h with
  | start => rfl
  | next _ hs ih => exact hs.waiting_since ih

theorem Run.index_lt (h : Run n t b) {i : Slot} {id k : Nat} (hk : .queued i id k ∈ t) :
    k < MAX_PENDING_REQUESTS := by
  induction h with
  | start => cases hk
  | next _ hs ih =>
    rcases List.mem_append.1 hk with hk | hk
    · exact ih hk
    cases hs with
    | quiet hnew => exact absurd rfl (hnew _ hk)
    | notFound | noImage | sends => simp [answerWith] at hk
    | waits _ hroom =>
      obtain ⟨-, -, rfl⟩ : _ ∧ _ ∧ k = _ := by simpa using hk
      exact hroom
    | publishes hbefore hafter =>
      obtain ho | ⟨conn, -, ho⟩ := mem_publishes hbefore hafter rfl hk
      · cases ho
      · cases ho

theorem Run.routed_lt (h : Run n t b) {i : Slot} {id : Nat} (hi : .routed i id ∈ t) :
    i.val < n := by
  induction h with
  | start => cases hi
  | next _ hs ih =>
    rcases List.mem_append.1 hi with hi | hi
    · exact ih hi
    cases hs with
    | quiet hnew => exact absurd rfl (hnew _ hi)
    | notFound => simp at hi
    | noImage hlt | sends hlt | waits hlt =>
      obtain ⟨rfl, -⟩ : i = _ ∧ _ := by simpa [answerWith] using hi
      exact hlt
    | publishes hbefore hafter =>
      obtain ho | ⟨conn, -, ho⟩ := mem_publishes hbefore hafter rfl hi
      · cases ho
      · cases ho

/-! ## Exactly one answer -/

/-- **Exactly once.** A request that was handed over once has been answered once and waits no
more, or it has not been answered and waits in one place. -/
theorem Run.counted_once (h : Run n t b) {id : Nat} (hid : (handed t).count id = 1) :
    (answered t).count id = 1 ∧ (∀ i, id ∉ (b.waiting i).map SgConnection.id) ∨
      (answered t).count id = 0 ∧ ∃ i, ((b.waiting i).map SgConnection.id).count id = 1 ∧
        ∀ j, j ≠ i → id ∉ (b.waiting j).map SgConnection.id := by
  have hsum := h.conserved id
  rw [hid] at hsum
  have hnone : ∀ {i}, ((b.waiting i).map SgConnection.id).count id = 0 →
      id ∉ (b.waiting i).map SgConnection.id := List.count_eq_zero.1
  by_cases hzero : b.waitingCount id = 0
  · refine .inl ⟨by omega, fun i => hnone ?_⟩
    exact Finset.sum_eq_zero_iff.1 hzero i (Finset.mem_univ i)
  · obtain ⟨i, hi, hpos⟩ := Finset.exists_ne_zero_of_sum_ne_zero hzero
    have hsplit := Finset.add_sum_erase Finset.univ
      (fun j => ((b.waiting j).map SgConnection.id).count id) hi
    have hone : b.waitingCount id = 1 := by omega
    unfold waitingCount at hone
    refine .inr ⟨by omega, i, by omega, fun j hj => hnone ?_⟩
    have hrest : ∑ j ∈ Finset.univ.erase i, ((b.waiting j).map SgConnection.id).count id = 0 := by
      omega
    exact Finset.sum_eq_zero_iff.1 hrest j (Finset.mem_erase.2 ⟨hj, Finset.mem_univ j⟩)

/-! ## Images -/

/-- The image in a slot fits the image buffer, and has been accepted from the camera whose turn is
before that of the slot. -/
theorem Run.images (h : Run n t b) : ∀ {i : Slot} {image : List UInt8}, b.image i = some image →
    image.length ≤ IMAGE_BUFFER_SIZE ∧
      ∃ j : Slot, Before n j i ∧ .accepted j image ∈ t := by
  induction h with
  | start => rintro i image ⟨⟩
  | @next t new b b' _ hs ih =>
    intro i image himage
    have hold : b.image i = some image → image.length ≤ IMAGE_BUFFER_SIZE ∧
        ∃ j : Slot, Before n j i ∧ .accepted j image ∈ t ++ new := by
      intro hold
      obtain ⟨hsize, j, hturn, hj⟩ := ih hold
      exact ⟨hsize, j, hturn, List.mem_append_left _ hj⟩
    cases hs with
    | quiet | notFound | noImage | sends | waits => exact hold himage
    | @publishes before after k j image' _ _ hsize hturn haccepted =>
      by_cases hi : i = k
      · subst hi
        rw [image_publish_self] at himage
        cases himage
        refine ⟨hsize, j, hturn, ?_⟩
        rw [List.append_assoc, ← List.append_assoc]
        exact List.mem_append_left _ haccepted
      · rw [b.image_publish_of_ne image' hi] at himage
        exact hold himage

/-! ## Answers -/

/-- How a step may answer a request: what it has added to the history `t` before it does, and the
answer. -/
inductive Answer (n : Nat) (t : List Event) (b : Board) (id : Nat) : List Event → Response → Prop
  | notFound : Answer n t b id [.handed id] .notFound
  | noImage {i : Slot} : Answer n t b id [.handed id, .routed i id] .notFound
  | sent {i : Slot} {image : List UInt8} (host : Option CString) (himage : b.image i = some image) :
      Answer n t b id [.handed id, .routed i id]
        (.jpeg (jpegHeaders image.length host) image image.length)
  | filled {i j : Slot} {before : List Event} {image : List UInt8} {conn : SgConnection}
      (conns : List SgConnection) (hbefore : ∀ o ∈ before, o.kind ≠ .client)
      (hconn : conn ∈ b.waiting i) (hid : conn.id = id) (hturn : Before n j i)
      (haccepted : .accepted j image ∈ t ++ before) :
      Answer n t b id (before ++ .stored i image :: conns.map (answerWith image))
        (.jpeg (jpegHeaders image.length conn.httpHost) image image.length)

theorem Step.answer (h : Step n t b new b') {past later : List Event} {id : Nat} {r : Response}
    (hnew : new = past ++ .response id r :: later) : Answer n t b id past r := by
  have hmem : .response id r ∈ new := by rw [hnew]; simp
  cases h with
  | quiet hquiet => exact absurd rfl (hquiet _ hmem)
  | notFound conn =>
    have hnew : [.handed conn.id] ++ [.response conn.id .notFound] =
        past ++ .response id r :: later := hnew
    rcases concat_eq_past hnew with hold | ⟨rfl, ho⟩
    · simp at hold
    · cases ho
      exact .notFound
  | waits => simp at hmem
  | @noImage i conn =>
    have hnew : [.handed conn.id, .routed i conn.id] ++ [.response conn.id .notFound] =
        past ++ .response id r :: later := hnew
    rcases concat_eq_past hnew with hold | ⟨rfl, ho⟩
    · simp at hold
    · cases ho
      exact .noImage
  | @sends i conn image _ himage =>
    have hnew : [.handed conn.id, .routed i conn.id] ++ [answerWith image conn] =
        past ++ .response id r :: later := hnew
    rcases concat_eq_past hnew with hold | ⟨rfl, ho⟩
    · simp at hold
    · cases ho
      exact .sent _ himage
  | @publishes before after i j image hbefore hafter hsize hturn haccepted =>
    rcases append_eq_past hnew with ⟨u, hu⟩ | ⟨u, -, hu⟩
    · rcases append_eq_past hu with ⟨v, hv⟩ | ⟨v, rfl, hv⟩
      · exact absurd rfl (hbefore (.response id r) (by rw [hv]; simp))
      · cases v with
        | nil => cases hv
        | cons x v =>
          obtain ⟨rfl, hmap⟩ := List.cons.inj hv
          obtain ⟨conns, rest, hconns, rfl, hrest⟩ := List.map_eq_append_iff.1 hmap
          obtain ⟨conn, rest, rfl, ho, -⟩ := List.map_eq_cons_iff.1 hrest
          cases ho
          refine .filled conns hbefore ?_ rfl hturn haccepted
          rw [hconns]
          simp
    · exact absurd rfl (hafter (.response id r) (by rw [hu]; simp))

end Board

/-- An answer to a request that waited: an image has been stored at the slot since, and the answer
is that image. -/
def AnswersNext (past : List Event) (o : Event) : Prop :=
  ∀ i id k r, o = .response id r → .queued i id k ∈ past → ∃ before mid after image headers,
    past = before ++ .queued i id k :: (mid ++ .stored i image :: after) ∧
      (∀ image', .stored i image' ∉ after) ∧ r = .jpeg headers image image.length

/-- An answer with an image: the request is for a camera, and the image is one of the camera whose
turn is before that of this camera. -/
def AnswersPrevious (n : Nat) (past : List Event) (o : Event) : Prop :=
  ∀ id headers image size, o = .response id (.jpeg headers image size) → ∃ i j : Slot,
    .routed i id ∈ past ∧ Before n j i ∧ .accepted j image ∈ past

namespace Board

variable {n : Nat} {t new : List Event} {b b' : Board}

theorem Run.answersPrevious (h : Run n t b) : Always (AnswersPrevious n) t := by
  induction h with
  | start => exact always_nil
  | @next t new b b' h hs ih =>
    apply ih.append
    intro past o later hnew id headers image size ho
    subst ho
    cases hs.answer hnew with
    | @sent i image host himage =>
      obtain ⟨-, j, hturn, hj⟩ := h.images himage
      exact ⟨i, j, by simp, hturn, List.mem_append_left _ hj⟩
    | @filled i j before image conn conns hbefore hconn hid hturn haccepted =>
      obtain ⟨hrouted, -⟩ := h.waiting_queued hconn
      rw [hid] at hrouted
      refine ⟨i, j, List.mem_append_left _ hrouted, hturn, ?_⟩
      rw [← List.append_assoc]
      exact List.mem_append_left _ haccepted

/-- A request that has been queued is not handed over again. -/
theorem Run.not_queued (h : Run n t b) {id : Nat} (hnodup : (handed (t ++ new)).Nodup)
    (hid : .handed id ∈ new) (i : Slot) (k : Nat) : .queued i id k ∉ t := by
  intro hq
  rw [handed_append] at hnodup
  have hold : id ∈ handed t := h.queued.subset (mem_queuedIds hq)
  exact List.disjoint_of_nodup_append hnodup hold (mem_handed.2 hid)

theorem Run.answersNext (h : Run n t b) (hnodup : (handed t).Nodup) : Always AnswersNext t := by
  induction h with
  | start => exact always_nil
  | @next t new b b' h hs ih =>
    have hold : (handed t).Nodup := by
      rw [handed_append] at hnodup
      exact hnodup.of_append_left
    apply (ih hold).append
    intro past o later hnew i id k r ho hq
    subst ho
    have hfresh : .handed id ∈ past → .queued i id k ∉ t := by
      intro hid
      apply h.not_queued hnodup
      rw [hnew]
      exact List.mem_append_left _ hid
    cases hs.answer hnew with
    | notFound | noImage | sent =>
      rcases List.mem_append.1 hq with hq | hq
      · exact absurd hq (hfresh (by simp))
      · simp at hq
    | @filled j l before image conn conns hbefore hconn hid =>
      have hqueued : .queued i id k ∈ t := by
        rcases List.mem_append.1 hq with hq | hq
        · exact hq
        · rcases List.mem_append.1 hq with hq | hq
          · exact absurd rfl (hbefore _ hq)
          · simp [answerWith] at hq
      obtain ⟨-, k', hk'⟩ := h.waiting_queued hconn
      rw [hid] at hk'
      have hone : (queuedIds t).Nodup := hold.sublist h.queued
      obtain ⟨rfl, -, rfl⟩ : i = j ∧ id = id ∧ k = k' := by
        simpa using eq_of_nodup_filterMap hone hqueued hk' rfl rfl
      obtain ⟨t₁, t₂, rfl⟩ := List.append_of_mem hqueued
      refine ⟨t₁, t₂ ++ before, conns.map (answerWith image), image, _, by simp, ?_, rfl⟩
      intro image' hstored
      simp [answerWith] at hstored

end Board

end Rsva11001
