import Mathlib.Data.List.Basic
import Mathlib.Data.List.Count
import Mathlib.Tactic.Common

/-!
# Stop and wait over a lossy link

A client sends a request and waits for its answer, and sends the same request again when no
answer comes. The link loses requests and answers, and does nothing else.

* `Serves`: a server that answers a request, and the same request again in the same way.
* `Link.exchange_answered`, `Link.exchange_unanswered`: how the attempts for one request end.
* `Conversation`: requests that are exchanged one after another; `Reached` and `Broken` say
  where a client stands in it, and `Reached.exchangeWith` is one step.
* `Broken.count_request`: the request that gets no answer is sent in every attempt.
-/

namespace Foundation

/-- What happens to an attempt: the sender gets an error, the request is lost, the answer is
lost, or the answer arrives. -/
inductive Fate where
  | refused
  | requestLost
  | answerLost
  | delivered
  deriving DecidableEq

section

variable (fates : Nat → Fate)

/-- One of `attempts` attempts from `first` on goes through in both directions. -/
def Succeeds (first attempts : Nat) : Prop := ∃ k < attempts, fates (first + k) = .delivered

instance (first attempts : Nat) : Decidable (Succeeds fates first attempts) :=
  inferInstanceAs (Decidable (∃ k < attempts, fates (first + k) = .delivered))

/-- One of `attempts` attempts from `first` on brings the request to the server, and no answer
back. -/
def Arrives (first attempts : Nat) : Prop := ∃ k < attempts, fates (first + k) = .answerLost

instance (first attempts : Nat) : Decidable (Arrives fates first attempts) :=
  inferInstanceAs (Decidable (∃ k < attempts, fates (first + k) = .answerLost))

/-- How many attempts are made until one goes through. -/
def attemptsMade (first : Nat) : Nat → Nat
  | 0 => 0
  | attempts + 1 => if fates first = .delivered then 1 else attemptsMade (first + 1) attempts + 1

variable {fates} {first attempts : Nat}

/-- The first attempt, or one of those after it. -/
theorem attempt_succ (fate : Fate) :
    (∃ k < attempts + 1, fates (first + k) = fate) ↔
      fates first = fate ∨ ∃ k < attempts, fates (first + 1 + k) = fate := by
  have hshift (k : Nat) : first + 1 + k = first + (k + 1) := by omega
  simp only [hshift]
  constructor
  · rintro ⟨k, hk, hfate⟩
    cases k with
    | zero => exact .inl hfate
    | succ k => exact .inr ⟨k, by omega, hfate⟩
  · rintro (hfate | ⟨k, hk, hfate⟩)
    · exact ⟨0, Nat.succ_pos attempts, hfate⟩
    · exact ⟨k + 1, by omega, hfate⟩

theorem succeeds_of_delivered (h : fates first = .delivered) :
    Succeeds fates first (attempts + 1) := (attempt_succ _).mpr (.inl h)

theorem succeeds_succ (h : fates first ≠ .delivered) :
    Succeeds fates first (attempts + 1) ↔ Succeeds fates (first + 1) attempts :=
  (attempt_succ _).trans (or_iff_right h)

theorem arrives_of_answerLost (h : fates first = .answerLost) :
    Arrives fates first (attempts + 1) := (attempt_succ _).mpr (.inl h)

theorem arrives_succ (h : fates first ≠ .answerLost) :
    Arrives fates first (attempts + 1) ↔ Arrives fates (first + 1) attempts :=
  (attempt_succ _).trans (or_iff_right h)

end

/-! ## The link -/

/-- A link between the client and the state of the server: the exchange and the attempt that
come next, the answer that waits for the client, and the requests handed to the link. -/
structure Link (S Q A : Type) where
  server : S
  exchange : Nat
  attempt : Nat
  answer : Option A
  sent : List Q

variable {S Q A : Type} (serve : S → Q → Option A × S) (fates : Nat → Nat → Fate)

namespace Link

/-- The link before the first exchange. -/
def start (server : S) : Link S Q A := ⟨server, 0, 0, none, []⟩

/-- Whether the link takes the request, and the link after it. -/
def send (link : Link S Q A) (request : Q) : Bool × Link S Q A :=
  let after : Link S Q A :=
    { link with attempt := link.attempt + 1, answer := none, sent := link.sent ++ [request] }
  match fates link.exchange link.attempt with
  | .refused => (false, after)
  | .requestLost => (true, after)
  | .answerLost => (true, { after with server := (serve link.server request).2 })
  | .delivered =>
    (true, { after with
      server := (serve link.server request).2
      answer := (serve link.server request).1 })

/-- The answer that has arrived; it ends the exchange. -/
def receive (link : Link S Q A) : Option A × Link S Q A :=
  match link.answer with
  | none => (none, link)
  | some answer =>
    (some answer, { link with exchange := link.exchange + 1, attempt := 0, answer := none })

/-- One attempt. -/
def once (link : Link S Q A) (request : Q) : Option A × Link S Q A :=
  let (taken, link) := link.send serve fates request
  if taken then link.receive else (none, link)

/-- Attempts until an answer arrives. -/
def exchangeWith (request : Q) : Nat → Link S Q A → Option A × Link S Q A
  | 0, link => (none, link)
  | attempts + 1, link =>
    match link.once serve fates request with
    | (some answer, link) => (some answer, link)
    | (none, link) => link.exchangeWith request attempts

end Link

/-- The server answers the request, and answers it again in the same way after that. -/
structure Serves (request : Q) (answer : A) (before after : S) : Prop where
  first : serve before request = (some answer, after)
  again : serve after request = (some answer, after)

section

variable {serve} {request : Q} {answer : A} {before after : S} {link : Link S Q A}

theorem Serves.serve_eq (h : Serves serve request answer before after)
    (hserver : link.server = before ∨ link.server = after) :
    serve link.server request = (some answer, after) := by
  rcases hserver with hserver | hserver
  · rw [hserver, h.first]
  · rw [hserver, h.again]

namespace Link

variable {fates}

/-- The link after an attempt that brings no answer. -/
def unanswered (link : Link S Q A) (server : S) (request : Q) : Link S Q A where
  server := server
  exchange := link.exchange
  attempt := link.attempt + 1
  answer := none
  sent := link.sent ++ [request]

/-- The link after the answer has arrived. -/
def answered (link : Link S Q A) (after : S) (sent : List Q) : Link S Q A where
  server := after
  exchange := link.exchange + 1
  attempt := 0
  answer := none
  sent := sent

theorem once_delivered (h : Serves serve request answer before after)
    (hserver : link.server = before ∨ link.server = after)
    (hfate : fates link.exchange link.attempt = .delivered) :
    link.once serve fates request
      = (some answer, link.answered after (link.sent ++ [request])) := by
  simp only [once, send, hfate, h.serve_eq hserver, if_true]
  rfl

theorem once_lost (h : Serves serve request answer before after)
    (hserver : link.server = before ∨ link.server = after)
    (hfate : fates link.exchange link.attempt ≠ .delivered) :
    ∃ server, (server = before ∨ server = after) ∧
      (server = if fates link.exchange link.attempt = .answerLost then after else link.server) ∧
      link.once serve fates request = (none, link.unanswered server request) := by
  cases hcase : fates link.exchange link.attempt with
  | refused =>
    refine ⟨link.server, hserver, rfl, ?_⟩
    simp only [once, send, hcase]
    rfl
  | requestLost =>
    refine ⟨link.server, hserver, rfl, ?_⟩
    simp only [once, send, hcase, if_true]
    rfl
  | answerLost =>
    refine ⟨after, .inr rfl, rfl, ?_⟩
    simp only [once, send, hcase, h.serve_eq hserver, if_true]
    rfl
  | delivered => exact absurd hcase hfate

/-- An attempt that goes through ends the exchange. -/
theorem exchange_answered (h : Serves serve request answer before after) {attempts : Nat}
    (hserver : link.server = before ∨ link.server = after)
    (hsucceeds : Succeeds (fates link.exchange) link.attempt attempts) :
    exchangeWith serve fates request attempts link
      = (some answer, link.answered after (link.sent
          ++ List.replicate (attemptsMade (fates link.exchange) link.attempt attempts)
            request)) := by
  induction attempts generalizing link with
  | zero => exact absurd hsucceeds (by simp [Succeeds])
  | succ attempts ih =>
    rw [exchangeWith, attemptsMade]
    by_cases hfate : fates link.exchange link.attempt = .delivered
    · rw [once_delivered h hserver hfate, if_pos hfate]
      rfl
    · obtain ⟨server, hnext, -, honce⟩ := once_lost h hserver hfate
      have hrest := @ih (link.unanswered server request) hnext
        ((succeeds_succ hfate).mp hsucceeds)
      rw [honce, if_neg hfate]
      simp only
      rw [hrest]
      simp only [answered, unanswered, List.append_assoc, List.replicate_succ,
        List.singleton_append]

/-- Without one, the request is sent in every attempt. The server has handled it if one of them
has brought it there. -/
theorem exchange_unanswered (h : Serves serve request answer before after) {attempts : Nat}
    (hserver : link.server = before ∨ link.server = after)
    (hfails : ¬ Succeeds (fates link.exchange) link.attempt attempts) :
    ∃ next, exchangeWith serve fates request attempts link = (none, next) ∧
      (next.server = if Arrives (fates link.exchange) link.attempt attempts then after
        else link.server) ∧
      next.sent = link.sent ++ List.replicate attempts request := by
  induction attempts generalizing link with
  | zero => exact ⟨link, rfl, (if_neg (by simp [Arrives])).symm, by simp⟩
  | succ attempts ih =>
    have hfate : fates link.exchange link.attempt ≠ .delivered :=
      fun hdelivered => hfails (succeeds_of_delivered hdelivered)
    obtain ⟨server, hnext, hstep, honce⟩ := once_lost h hserver hfate
    obtain ⟨last, hlast, hserver', hsent⟩ := @ih (link.unanswered server request) hnext
      (mt (succeeds_succ hfate).mpr hfails)
    refine ⟨last, ?_, ?_, ?_⟩
    · rw [exchangeWith, honce]
      exact hlast
    · have hrest : last.server = if Arrives (fates link.exchange) (link.attempt + 1) attempts
          then after else server := hserver'
      by_cases hlost : fates link.exchange link.attempt = .answerLost
      · rw [if_pos hlost] at hstep
        rw [hrest, hstep, ite_self, if_pos (arrives_of_answerLost hlost)]
      · rw [if_neg hlost] at hstep
        rw [hrest, hstep]
        exact (if_congr (arrives_succ hlost) rfl rfl).symm
    · rw [hsent, unanswered, List.append_assoc, List.replicate_succ, List.singleton_append]

end Link

end

/-! ## Conversations -/

/-- Every exchange before number `i` succeeds. -/
def SucceedsBefore (attempts i : Nat) : Prop := ∀ j < i, Succeeds (fates j) 0 attempts

/-- Requests that the server answers one after another. -/
structure Conversation (S Q A : Type) (serve : S → Q → Option A × S) (count : Nat) where
  request : Nat → Q
  answer : Nat → A
  server : Nat → S
  answers : ∀ i < count, Serves serve (request i) (answer i) (server i) (server (i + 1))

namespace Conversation

variable {serve} {count : Nat} (conversation : Conversation S Q A serve count) (attempts : Nat)

/-- The requests that are sent before exchange `i`. -/
def sentBefore (i : Nat) : List Q :=
  (List.range i).flatMap fun j =>
    List.replicate (attemptsMade (fates j) 0 attempts) (conversation.request j)

/-- The client has the answers of the first `i` exchanges. -/
structure Reached (i : Nat) (link : Link S Q A) : Prop where
  exchange : link.exchange = i
  attempt : link.attempt = 0
  server : link.server = conversation.server i
  sent : link.sent = conversation.sentBefore fates attempts i
  succeeds : SucceedsBefore fates attempts i

/-- Exchange `i` is the first one that gets no answer. -/
structure Broken (i : Nat) (link : Link S Q A) : Prop where
  lt : i < count
  server : link.server = if Arrives (fates i) 0 attempts then conversation.server (i + 1)
    else conversation.server i
  sent : link.sent = conversation.sentBefore fates attempts i
    ++ List.replicate attempts (conversation.request i)
  succeeds : SucceedsBefore fates attempts i
  fails : ¬ Succeeds (fates i) 0 attempts

variable {conversation fates attempts} {i j : Nat} {link : Link S Q A}

theorem reached_start (server : S) (h : conversation.server 0 = server) :
    conversation.Reached fates attempts 0 (.start server) :=
  ⟨rfl, rfl, h.symm, rfl, fun _ hj => absurd hj (Nat.not_lt_zero _)⟩

/-- One exchange of the conversation. -/
theorem Reached.exchangeWith (h : conversation.Reached fates attempts i link) (hi : i < count) :
    (∃ next, link.exchangeWith serve fates (conversation.request i) attempts
        = (some (conversation.answer i), next) ∧
      conversation.Reached fates attempts (i + 1) next) ∨
    ∃ next, link.exchangeWith serve fates (conversation.request i) attempts = (none, next) ∧
      conversation.Broken fates attempts i next := by
  have hanswers := conversation.answers i hi
  by_cases hsucceeds : Succeeds (fates i) 0 attempts
  · left
    have hcase := hsucceeds
    rw [← h.attempt, ← h.exchange] at hcase
    refine ⟨_, Link.exchange_answered hanswers (.inl h.server) hcase, ?_⟩
    refine ⟨?_, rfl, rfl, ?_, fun j hj => ?_⟩
    · rw [Link.answered, h.exchange]
    · simp only [Link.answered, h.sent, h.exchange, h.attempt, sentBefore, List.range_succ,
        List.flatMap_append, List.flatMap_singleton]
    · rcases Nat.lt_succ_iff_lt_or_eq.mp hj with hlt | rfl
      · exact h.succeeds j hlt
      · exact hsucceeds
  · right
    have hcase := hsucceeds
    rw [← h.attempt, ← h.exchange] at hcase
    obtain ⟨next, hnext, hserver, hsent⟩ := Link.exchange_unanswered hanswers (.inl h.server) hcase
    rw [h.exchange, h.attempt, h.server] at hserver
    exact ⟨next, hnext, hi, hserver, by rw [hsent, h.sent], h.succeeds, hsucceeds⟩

/-- A client that has all answers was not stopped. -/
theorem Broken.not_succeedsBefore (h : conversation.Broken fates attempts i link) (hij : i < j) :
    ¬ SucceedsBefore fates attempts j := fun hall => h.fails (hall i hij)

/-- The first exchange that gets no answer is the one where the client is stopped. -/
theorem Broken.eq_of_first (h : conversation.Broken fates attempts i link)
    (hbefore : SucceedsBefore fates attempts j) (hfails : ¬ Succeeds (fates j) 0 attempts) :
    i = j := by
  rcases Nat.lt_trichotomy i j with hlt | heq | hgt
  · exact absurd hbefore (h.not_succeedsBefore hlt)
  · exact heq
  · exact absurd (h.succeeds j hgt) hfails

/-- A request that differs from all earlier ones is sent exactly once in every attempt. -/
theorem Broken.count_request [BEq Q] [LawfulBEq Q] (h : conversation.Broken fates attempts i link)
    (hdistinct : ∀ j < i, conversation.request j ≠ conversation.request i) :
    link.sent.count (conversation.request i) = attempts := by
  have hbefore : (conversation.sentBefore fates attempts i).count (conversation.request i) = 0 := by
    rw [List.count_eq_zero]
    intro hmem
    obtain ⟨j, hj, hreplicate⟩ := List.mem_flatMap.mp hmem
    exact hdistinct j (List.mem_range.mp hj) (List.eq_of_mem_replicate hreplicate).symm
  rw [h.sent, List.count_append, hbefore, List.count_replicate_self, Nat.zero_add]

/-! ### One conversation after another -/

section

variable {m n : Nat} {α : Type} (first : Conversation S Q A serve m)
  (second : Conversation S Q A serve n)

/-- The first `m` values, and the others after them. -/
def joinAt (m : Nat) (f g : Nat → α) (i : Nat) : α := if i < m then f i else g (i - m)

theorem joinAt_left {f g : Nat → α} {i : Nat} (hi : i < m) : joinAt m f g i = f i := if_pos hi

theorem joinAt_right (f g : Nat → α) (i : Nat) : joinAt m f g (m + i) = g i := by
  rw [joinAt, if_neg (Nat.not_lt.mpr (Nat.le_add_right m i)), Nat.add_sub_cancel_left]

theorem append_serves (hserver : first.server m = second.server 0) (i : Nat) (hi : i < m + n) :
    Serves serve (joinAt m first.request second.request i) (joinAt m first.answer second.answer i)
      (joinAt m first.server second.server i) (joinAt m first.server second.server (i + 1)) := by
  by_cases hlt : i < m
  · have hanswers := first.answers i hlt
    rw [joinAt_left hlt, joinAt_left hlt, joinAt_left hlt]
    by_cases hnext : i + 1 < m
    · rwa [joinAt_left hnext]
    · obtain rfl : m = i + 1 := by omega
      rw [hserver] at hanswers
      rwa [joinAt, if_neg (Nat.lt_irrefl _), Nat.sub_self]
  · obtain ⟨k, rfl⟩ : ∃ k, i = m + k := ⟨i - m, by omega⟩
    rw [Nat.add_assoc, joinAt_right, joinAt_right, joinAt_right, joinAt_right]
    exact second.answers k (by omega)

/-- The second conversation starts where the first one ends. -/
def append (hserver : first.server m = second.server 0) : Conversation S Q A serve (m + n) where
  request := joinAt m first.request second.request
  answer := joinAt m first.answer second.answer
  server := joinAt m first.server second.server
  answers := append_serves first second hserver

variable {first second} {hserver : first.server m = second.server 0} {i : Nat}

theorem append_request_left (hi : i < m) :
    (first.append second hserver).request i = first.request i := joinAt_left hi

theorem append_request_right (i : Nat) :
    (first.append second hserver).request (m + i) = second.request i := joinAt_right ..

theorem append_answer_right (i : Nat) :
    (first.append second hserver).answer (m + i) = second.answer i := joinAt_right ..

theorem append_server_right (i : Nat) :
    (first.append second hserver).server (m + i) = second.server i := joinAt_right ..

theorem append_server_left (hi : i ≤ m) :
    (first.append second hserver).server i = first.server i := by
  rcases Nat.lt_or_eq_of_le hi with hlt | rfl
  · exact joinAt_left hlt
  · have hright : (first.append second hserver).server (i + 0) = second.server 0 :=
      append_server_right 0
    rw [Nat.add_zero] at hright
    rw [hright, hserver]

theorem append_sentBefore (hi : i ≤ m) :
    (first.append second hserver).sentBefore fates attempts i
      = first.sentBefore fates attempts i := by
  refine List.flatMap_congr fun j hj => ?_
  rw [append_request_left (Nat.lt_of_lt_of_le (List.mem_range.mp hj) hi)]

theorem Reached.append (h : first.Reached fates attempts i link) (hi : i ≤ m) :
    (first.append second hserver).Reached fates attempts i link :=
  ⟨h.exchange, h.attempt, by rw [append_server_left hi]; exact h.server,
    by rw [append_sentBefore hi]; exact h.sent, h.succeeds⟩

theorem Broken.append (h : first.Broken fates attempts i link) :
    (first.append second hserver).Broken fates attempts i link := by
  have hlt := h.lt
  refine ⟨by omega, ?_, ?_, h.succeeds, h.fails⟩
  · rw [append_server_left (Nat.le_of_lt hlt), append_server_left hlt]
    exact h.server
  · rw [append_sentBefore (Nat.le_of_lt hlt), append_request_left hlt]
    exact h.sent

end

end Conversation

end Foundation
