import GraphLoom.Foundation.Transition

/-!
# A mailbox with a closing barrier

Many producers put keyed items into one first-in first-out queue, and one consumer takes them out.
A key accepts items while it is open.  To close it, a producer first stops further items and then
queues a closing mark; the key is closed when the consumer takes the mark.  The consumer may stop at
any moment, and then nothing is consumed any more.

For every key the consumed items are a prefix of the accepted ones (`consumed_isPrefix`), they are
all of them once the key is closed (`consumed_of_closed`), and from then on nothing changes for the
key (`closed_stable`).
-/

namespace GraphLoom.Foundation.Mailbox

open Function (update update_of_ne update_self)

/-- The phase of a key. -/
inductive Phase where
  /-- Never opened. -/
  | absent
  /-- Accepts items. -/
  | open
  /-- Accepts no more items; its closing mark is, or is about to be, queued. -/
  | closing
  /-- Its closing mark was taken. -/
  | closed
  /-- Given up without being closed. -/
  | failed
deriving DecidableEq

/-- An entry of the queue. -/
inductive Entry (κ α : Type*) where
  | item (key : κ) (value : α)
  | close (key : κ)
deriving DecidableEq

/-- The state of a mailbox. -/
structure State (κ α : Type*) where
  phase : κ → Phase
  pending : List (Entry κ α)
  accepted : κ → List α
  consumed : κ → List α
  /-- Whether the consumer still runs. -/
  alive : Prop

variable {κ α : Type*}

/-- The items of a key among the queued entries. -/
def itemsOf [DecidableEq κ] (key : κ) : List (Entry κ α) → List α
  | [] => []
  | .item key' value :: rest => if key' = key then value :: itemsOf key rest else itemsOf key rest
  | .close _ :: rest => itemsOf key rest

section ItemsOf

variable [DecidableEq κ] (key : κ)

@[simp]
theorem itemsOf_append (xs ys : List (Entry κ α)) :
    itemsOf key (xs ++ ys) = itemsOf key xs ++ itemsOf key ys := by
  induction xs with
  | nil => rfl
  | cons x xs ih =>
    cases x with
    | item key' value =>
      rw [List.cons_append, itemsOf, itemsOf, ih]
      split <;> rfl
    | close key' => exact ih

theorem itemsOf_eq_nil {xs : List (Entry κ α)} (h : ∀ value, Entry.item key value ∉ xs) :
    itemsOf key xs = [] := by
  induction xs with
  | nil => rfl
  | cons x xs ih =>
    have hrest : ∀ value, Entry.item key value ∉ xs := fun value hmem =>
      h value (List.mem_cons_of_mem _ hmem)
    cases x with
    | item key' value =>
      rw [itemsOf, ih hrest]
      refine ite_cond_eq_false _ _ (eq_false ?_)
      rintro rfl
      exact h value (List.mem_cons_self ..)
    | close key' => exact ih hrest

end ItemsOf

/-- One step of a mailbox. -/
inductive Step [DecidableEq κ] : State κ α → Unit → State κ α → Prop
  /-- A key opens. -/
  | opens {s : State κ α} (key : κ) (absent : s.phase key = .absent) :
      Step s () { s with phase := Function.update s.phase key .open }
  /-- An open key accepts an item. -/
  | accepts {s : State κ α} (key : κ) (value : α) (isOpen : s.phase key = .open) :
      Step s ()
        { s with
          pending := s.pending ++ [.item key value]
          accepted := Function.update s.accepted key (s.accepted key ++ [value]) }
  /-- An open key stops accepting. -/
  | stopsAccepting {s : State κ α} (key : κ) (isOpen : s.phase key = .open) :
      Step s () { s with phase := Function.update s.phase key .closing }
  /-- The closing mark of a key that stopped accepting is queued. -/
  | queuesClose {s : State κ α} (key : κ) (notOpen : s.phase key ≠ .open)
      (notAbsent : s.phase key ≠ .absent) :
      Step s () { s with pending := s.pending ++ [.close key] }
  /-- A key that is not closed is given up. -/
  | fails {s : State κ α} (key : κ) (started : s.phase key = .open ∨ s.phase key = .closing) :
      Step s () { s with phase := Function.update s.phase key .failed }
  /-- The consumer takes an item. -/
  | consumes {s : State κ α} (key : κ) (value : α) (rest : List (Entry κ α)) (alive : s.alive)
      (first : s.pending = .item key value :: rest) :
      Step s ()
        { s with
          pending := rest
          consumed := Function.update s.consumed key (s.consumed key ++ [value]) }
  /-- The consumer takes the closing mark of a key that is closing. -/
  | closes {s : State κ α} (key : κ) (rest : List (Entry κ α)) (alive : s.alive)
      (first : s.pending = .close key :: rest) (isClosing : s.phase key = .closing) :
      Step s () { s with pending := rest, phase := Function.update s.phase key .closed }
  /-- The consumer takes a closing mark that is void. -/
  | skips {s : State κ α} (key : κ) (rest : List (Entry κ α)) (alive : s.alive)
      (first : s.pending = .close key :: rest) :
      Step s () { s with pending := rest }
  /-- The consumer stops. -/
  | stops {s : State κ α} (pending : List (Entry κ α)) :
      Step s () { s with pending := pending, alive := False }

/-- The mailbox as a system: every key is absent at the start and nothing is queued. -/
def system (κ α : Type*) [DecidableEq κ] : System (State κ α) Unit where
  init s := (∀ key, s.phase key = .absent) ∧ s.pending = [] ∧ (∀ key, s.accepted key = []) ∧
    ∀ key, s.consumed key = []
  step := Step

variable [DecidableEq κ]

/-- What holds of a mailbox at every moment. -/
structure Valid (s : State κ α) : Prop where
  /-- While the consumer runs, what was accepted was consumed or is queued. -/
  accounted : s.alive → ∀ key, s.accepted key = s.consumed key ++ itemsOf key s.pending
  inOrder : ∀ key, s.consumed key <+: s.accepted key
  /-- A queued closing mark belongs to a key that accepts no more. -/
  marked : s.alive → ∀ key, .close key ∈ s.pending → s.phase key ≠ .open ∧ s.phase key ≠ .absent
  /-- No item is queued behind the closing mark of its key. -/
  ordered : s.alive → ∀ key before after, s.pending = before ++ .close key :: after →
    ∀ value, .item key value ∉ after
  closed : ∀ key, s.phase key = .closed → s.consumed key = s.accepted key
  closedQueue : s.alive → ∀ key, s.phase key = .closed → ∀ value, .item key value ∉ s.pending
  absent : ∀ key, s.phase key = .absent → s.accepted key = []

theorem valid_init {s : State κ α} (h : (system κ α).init s) : Valid s := by
  obtain ⟨hphase, hpending, haccepted, hconsumed⟩ := h
  refine ⟨?_, ?_, ?_, ?_, ?_, ?_, ?_⟩
  · intro _ key
    rw [haccepted, hconsumed, hpending]
    rfl
  · intro key
    exact ⟨[], by rw [haccepted, hconsumed]; rfl⟩
  · intro _ key hmem
    rw [hpending] at hmem
    cases hmem
  · intro _ key before after heq
    rw [hpending] at heq
    exact absurd heq.symm (by simp)
  · intro key hclosed
    rw [hphase] at hclosed
    cases hclosed
  · intro _ key hclosed
    rw [hphase] at hclosed
    cases hclosed
  · exact fun key _ => haccepted key

/-! ### What a step does to one key -/

theorem phase_update_of_ne {s : State κ α} {key key' : κ} (h : key' ≠ key) (phase : Phase) :
    update s.phase key phase key' = s.phase key' :=
  update_of_ne h _ _

/-- A closed key stays closed, and none of its items is accepted or consumed. -/
theorem Step.closed_stable {s t : State κ α} (hs : Valid s) (hstep : Step s () t) {key : κ}
    (hclosed : s.phase key = .closed) :
    t.phase key = .closed ∧ t.accepted key = s.accepted key ∧ t.consumed key = s.consumed key := by
  -- a step at another key, or one that only a key in another phase takes
  have hother : ∀ {key' : κ} {phase : Phase}, s.phase key' = phase → phase ≠ .closed →
      key ≠ key' := by
    rintro key' phase hphase hne rfl
    exact hne (hphase.symm.trans hclosed)
  cases hstep with
  | opens key' absent =>
    exact ⟨(phase_update_of_ne (hother absent (by decide)) _).trans hclosed, rfl, rfl⟩
  | accepts key' value isOpen =>
    exact ⟨hclosed, update_of_ne (hother isOpen (by decide)) _ _, rfl⟩
  | stopsAccepting key' isOpen =>
    exact ⟨(phase_update_of_ne (hother isOpen (by decide)) _).trans hclosed, rfl, rfl⟩
  | queuesClose => exact ⟨hclosed, rfl, rfl⟩
  | fails key' started =>
    have hne : key ≠ key' := started.elim (fun h => hother h (by decide))
      fun h => hother h (by decide)
    exact ⟨(phase_update_of_ne hne _).trans hclosed, rfl, rfl⟩
  | consumes key' value rest alive first =>
    have hne : key ≠ key' := by
      rintro rfl
      refine hs.closedQueue alive key hclosed value ?_
      rw [first]
      exact List.mem_cons_self ..
    exact ⟨hclosed, rfl, update_of_ne hne _ _⟩
  | closes key' rest alive first isClosing =>
    exact ⟨(phase_update_of_ne (hother isClosing (by decide)) _).trans hclosed, rfl, rfl⟩
  | skips => exact ⟨hclosed, rfl, rfl⟩
  | stops => exact ⟨hclosed, rfl, rfl⟩

/-! ### The invariant is preserved -/

namespace Valid

variable {s : State κ α} {key : κ}

theorem opens (hs : Valid s) (absent : s.phase key = .absent) :
    Valid { s with phase := update s.phase key .open } := by
  have hphase : ∀ key', update s.phase key .open key' = .closed →
      s.phase key' = .closed := by
    intro key' h
    by_cases hk : key' = key
    · rw [hk, update_self] at h
      cases h
    · rwa [phase_update_of_ne hk] at h
  refine ⟨hs.accounted, hs.inOrder, ?_, hs.ordered, fun key' h => hs.closed key' (hphase key' h),
    fun alive key' h => hs.closedQueue alive key' (hphase key' h), ?_⟩
  · intro alive key' hmem
    have hk : key' ≠ key := by
      rintro rfl
      exact (hs.marked alive key' hmem).2 absent
    show update s.phase key .open key' ≠ .open ∧
      update s.phase key .open key' ≠ .absent
    rw [phase_update_of_ne hk]
    exact hs.marked alive key' hmem
  · intro key' (h : update s.phase key .open key' = .absent)
    by_cases hk : key' = key
    · rw [hk, update_self] at h
      cases h
    · rw [phase_update_of_ne hk] at h
      exact hs.absent key' h

/-- An entry put behind the queue keeps the order, when it is no item of a key with a mark. -/
theorem ordered_append (hs : Valid s) (alive : s.alive) {entry : Entry κ α}
    (hnew : ∀ key value, entry = .item key value → .close key ∉ s.pending) (key : κ)
    (before after : List (Entry κ α)) (heq : s.pending ++ [entry] = before ++ .close key :: after)
    (value : α) : .item key value ∉ after := by
  intro hmem
  -- the new entry is the last one, so the mark stands before it
  rcases List.eq_nil_or_concat after with rfl | ⟨after', last, rfl⟩
  · cases hmem
  · rw [List.concat_eq_append, ← List.cons_append, ← List.append_assoc] at heq
    obtain ⟨heq, hlast⟩ := List.append_inj' heq rfl
    rw [List.concat_eq_append, List.mem_append, List.mem_singleton] at hmem
    rcases hmem with hmem | hmem
    · exact hs.ordered alive key before after' heq value hmem
    · refine hnew key value ((List.cons.inj hlast).1.trans hmem.symm) ?_
      rw [heq]
      exact List.mem_append_right _ (List.mem_cons_self ..)

theorem accepts (hs : Valid s) (value : α) (isOpen : s.phase key = .open) : Valid { s with
      pending := s.pending ++ [.item key value]
      accepted := update s.accepted key (s.accepted key ++ [value]) } := by
  have hne : ∀ {key' : κ} {phase : Phase}, s.phase key' = phase → phase ≠ .open → key' ≠ key := by
    rintro key' phase hphase hnot rfl
    exact hnot (hphase.symm.trans isOpen)
  refine ⟨?_, ?_, ?_, ?_, ?_, ?_, ?_⟩
  · intro alive key'
    show update s.accepted key (s.accepted key ++ [value]) key' = _
    rw [itemsOf_append, ← List.append_assoc, ← hs.accounted alive key']
    by_cases hk : key' = key
    · rw [hk, update_self]
      simp [itemsOf]
    · rw [update_of_ne hk]
      simp [itemsOf, Ne.symm hk]
  · intro key'
    show s.consumed key' <+: update s.accepted key (s.accepted key ++ [value]) key'
    by_cases hk : key' = key
    · rw [hk, update_self]
      exact (hs.inOrder key).trans (List.prefix_append _ _)
    · rw [update_of_ne hk]
      exact hs.inOrder key'
  · intro alive key' hmem
    rw [List.mem_append, List.mem_singleton] at hmem
    exact hs.marked alive key' (hmem.resolve_right (by simp))
  · refine fun alive => hs.ordered_append alive fun key' value' heq hmark => ?_
    obtain rfl := (Entry.item.inj heq).1
    exact (hs.marked alive key hmark).1 isOpen
  · intro key' hclosed
    show s.consumed key' = update s.accepted key (s.accepted key ++ [value]) key'
    rw [update_of_ne (hne hclosed (by decide))]
    exact hs.closed key' hclosed
  · intro alive key' hclosed value' hmem
    rw [List.mem_append, List.mem_singleton, Entry.item.injEq] at hmem
    rcases hmem with hmem | hmem
    · exact hs.closedQueue alive key' hclosed value' hmem
    · exact hne hclosed (by decide) hmem.1
  · intro key' habsent
    show update s.accepted key (s.accepted key ++ [value]) key' = []
    rw [update_of_ne (hne habsent (by decide))]
    exact hs.absent key' habsent

/-- A change of a key to closing or failed. -/
theorem leaves (hs : Valid s) {phase : Phase} (hphase : phase = .closing ∨ phase = .failed) :
    Valid { s with phase := update s.phase key phase } := by
  have hback : ∀ key' phase', update s.phase key phase key' = phase' →
      phase' = .closed ∨ phase' = .absent → s.phase key' = phase' := by
    intro key' phase' h hphase'
    by_cases hk : key' = key
    · rw [hk, update_self] at h
      rcases hphase with rfl | rfl <;> rcases hphase' with rfl | rfl <;> cases h
    · rwa [phase_update_of_ne hk] at h
  refine ⟨hs.accounted, hs.inOrder, ?_, hs.ordered,
    fun key' h => hs.closed key' (hback key' _ h (Or.inl rfl)),
    fun alive key' h => hs.closedQueue alive key' (hback key' _ h (Or.inl rfl)),
    fun key' h => hs.absent key' (hback key' _ h (Or.inr rfl))⟩
  intro alive key' hmem
  show update s.phase key phase key' ≠ .open ∧ update s.phase key phase key' ≠ _
  by_cases hk : key' = key
  · rw [hk, update_self]
    rcases hphase with rfl | rfl <;> decide
  · rw [phase_update_of_ne hk]
    exact hs.marked alive key' hmem

theorem queuesClose (hs : Valid s) (notOpen : s.phase key ≠ .open)
    (notAbsent : s.phase key ≠ .absent) : Valid { s with pending := s.pending ++ [.close key] } := by
  refine ⟨?_, hs.inOrder, ?_, ?_, hs.closed, ?_, hs.absent⟩
  · intro alive key'
    rw [itemsOf_append, hs.accounted alive key']
    simp [itemsOf]
  · intro alive key' hmem
    rw [List.mem_append, List.mem_singleton, Entry.close.injEq] at hmem
    rcases hmem with hmem | rfl
    · exact hs.marked alive key' hmem
    · exact ⟨notOpen, notAbsent⟩
  · exact fun alive => hs.ordered_append alive fun _ _ h => nomatch h
  · intro alive key' hclosed value hmem
    rw [List.mem_append, List.mem_singleton] at hmem
    exact hs.closedQueue alive key' hclosed value (hmem.resolve_right (by simp))

variable {rest : List (Entry κ α)}

/-- What the rest of the queue keeps when its first entry is taken. -/
theorem ordered_tail (hs : Valid s) (alive : s.alive) {entry : Entry κ α}
    (first : s.pending = entry :: rest) (key : κ)
    (before after : List (Entry κ α)) (heq : rest = before ++ .close key :: after) (value : α) :
    .item key value ∉ after :=
  hs.ordered alive key (entry :: before) after (by rw [first, heq, List.cons_append]) value

theorem consumes (hs : Valid s) {value : α} (alive : s.alive)
    (first : s.pending = .item key value :: rest) :
    Valid { s with
      pending := rest
      consumed := update s.consumed key (s.consumed key ++ [value]) } := by
  have hmem : ∀ {entry : Entry κ α}, entry ∈ rest → entry ∈ s.pending := by
    intro entry h
    rw [first]
    exact List.mem_cons_of_mem _ h
  have haccounted : ∀ key', s.accepted key' =
      update s.consumed key (s.consumed key ++ [value]) key' ++ itemsOf key' rest := by
    intro key'
    rw [hs.accounted alive key', first, itemsOf]
    by_cases hk : key' = key
    · rw [hk, update_self, ite_cond_eq_true _ _ (eq_true rfl), List.append_assoc,
        List.singleton_append]
    · rw [update_of_ne hk, ite_cond_eq_false _ _ (eq_false (Ne.symm hk))]
  refine ⟨fun _ => haccounted, ?_, fun alive key' h => hs.marked alive key' (hmem h),
    fun alive => hs.ordered_tail alive first, ?_,
    fun alive key' hclosed value' h => hs.closedQueue alive key' hclosed value' (hmem h),
    hs.absent⟩
  · intro key'
    rw [haccounted key']
    exact List.prefix_append _ _
  · intro key' hclosed
    have hne : key' ≠ key := by
      rintro rfl
      refine hs.closedQueue alive key' hclosed value ?_
      rw [first]
      exact List.mem_cons_self ..
    show update s.consumed key (s.consumed key ++ [value]) key' = _
    rw [update_of_ne hne]
    exact hs.closed key' hclosed

theorem skips (hs : Valid s) (alive : s.alive)
    (first : s.pending = .close key :: rest) : Valid { s with pending := rest } := by
  have hmem : ∀ {entry : Entry κ α}, entry ∈ rest → entry ∈ s.pending := by
    intro entry h
    rw [first]
    exact List.mem_cons_of_mem _ h
  refine ⟨fun _ key' => ?_, hs.inOrder, fun alive key' h => hs.marked alive key' (hmem h),
    fun alive => hs.ordered_tail alive first, hs.closed,
    fun alive key' hclosed value' h => hs.closedQueue alive key' hclosed value' (hmem h),
    hs.absent⟩
  rw [hs.accounted alive key', first, itemsOf]

theorem closes (hs : Valid s) (alive : s.alive) (first : s.pending = .close key :: rest) :
    Valid { s with pending := rest, phase := update s.phase key .closed } := by
  have hrest := hs.skips alive first
  -- every item of the key was queued before the mark, so it was consumed
  have hnone : ∀ value, .item key value ∉ rest := hs.ordered alive key [] rest first
  have hall : s.consumed key = s.accepted key := by
    rw [hrest.accounted alive key, itemsOf_eq_nil key hnone, List.append_nil]
  have hback : ∀ key' phase, update s.phase key .closed key' = phase →
      phase ≠ .closed → s.phase key' = phase := by
    intro key' phase h hne
    by_cases hk : key' = key
    · rw [hk, update_self] at h
      exact absurd h.symm hne
    · rwa [phase_update_of_ne hk] at h
  refine ⟨hrest.accounted, hrest.inOrder, ?_, hrest.ordered, ?_, ?_,
    fun key' h => hs.absent key' (hback key' _ h (by decide))⟩
  · intro alive key' hmem
    show update s.phase key .closed key' ≠ .open ∧
      update s.phase key .closed key' ≠ .absent
    by_cases hk : key' = key
    · rw [hk, update_self]
      decide
    · rw [phase_update_of_ne hk]
      exact hrest.marked alive key' hmem
  · intro key' (hclosed : update s.phase key .closed key' = .closed)
    by_cases hk : key' = key
    · rw [hk]
      exact hall
    · rw [phase_update_of_ne hk] at hclosed
      exact hs.closed key' hclosed
  · intro alive key' (hclosed : update s.phase key .closed key' = .closed) value
    by_cases hk : key' = key
    · rw [hk]
      exact hnone value
    · rw [phase_update_of_ne hk] at hclosed
      exact hrest.closedQueue alive key' hclosed value

/-- Every step preserves the invariant. -/
theorem step (hs : Valid s) {t : State κ α} (h : Step s () t) : Valid t := by
  cases h with
  | opens key absent => exact hs.opens absent
  | accepts key value isOpen => exact hs.accepts value isOpen
  | stopsAccepting key isOpen => exact hs.leaves (Or.inl rfl)
  | queuesClose key notOpen notAbsent => exact hs.queuesClose notOpen notAbsent
  | fails key started => exact hs.leaves (Or.inr rfl)
  | consumes key value rest alive first => exact hs.consumes alive first
  | closes key rest alive first isClosing => exact hs.closes alive first
  | skips key rest alive first => exact hs.skips alive first
  | stops pending =>
    exact ⟨fun h => h.elim, hs.inOrder, fun h => h.elim, fun h => h.elim, hs.closed,
      fun h => h.elim, hs.absent⟩

end Valid

/-! ### Runs -/

theorem valid_of_reachable {s : State κ α} (h : (system κ α).Reachable s) : Valid s :=
  System.Reachable.invariant (fun _ => valid_init) (fun _ _ _ _ hs hstep => hs.step hstep) h

/-- **Nothing is lost or reordered.**  The consumed items of a key are a prefix of the accepted
ones. -/
theorem consumed_isPrefix {s : State κ α} (h : (system κ α).Reachable s) (key : κ) :
    s.consumed key <+: s.accepted key :=
  (valid_of_reachable h).inOrder key

/-- **Closing is a barrier.**  Once a key is closed all its accepted items are consumed. -/
theorem consumed_of_closed {s : State κ α} (h : (system κ α).Reachable s) {key : κ}
    (hclosed : s.phase key = .closed) : s.consumed key = s.accepted key :=
  (valid_of_reachable h).closed key hclosed

end GraphLoom.Foundation.Mailbox
