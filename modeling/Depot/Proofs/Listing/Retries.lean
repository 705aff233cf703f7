import Depot.Listing.Inquiry
import Depot.Scripted
import Mathlib.Data.List.Chain
import Mathlib.Data.List.TakeDrop

/-!
# Listings gone through again and again

A cursor stays where it is when a page is not answered, so that whoever calls it once more asks for
the same page. At any moment it has before it what it has kept of the pages received, and what is
still to be asked for (`Cursor.ahead`). A call takes the first of that, be it an error, and when
nothing is left it takes nothing and asks for nothing (`Cursor.Pending.nextItem`). The main
statement is `Cursor.nextItems_of_supplies`; any pages with any errors among them are the answers of
some store (`Scripted.exists_supplies`).
-/

set_option autoImplicit false

namespace Depot

/-! ## Results with errors among them -/

section Results

variable {α : Type}

theorem failures_append (results more : List (Except StoreError α)) :
    failures (results ++ more) = failures results ++ failures more :=
  List.filterMap_append

theorem length_failures_le (results : List (Except StoreError α)) :
    (failures results).length ≤ results.length :=
  List.length_filterMap_le _ _

/-- Without its errors, the front of some results is the front of what these results are without
their errors. It is shorter by as many as there are errors in it. -/
theorem toOption_takeD (results : List (Except StoreError (Option α))) (n : Nat) :
    (results.takeD n (.ok none)).filterMap Except.toOption =
      (results.filterMap Except.toOption).takeD
        (n - (failures (results.takeD n (.ok none))).length) none := by
  induction n generalizing results with
  | zero => rfl
  | succ n ih =>
    have hle : ∀ results : List (Except StoreError (Option α)),
        (failures (results.takeD n (.ok none))).length ≤ n := by
      intro results
      have hle := length_failures_le (results.takeD n (.ok none))
      rwa [List.takeD_length] at hle
    cases results with
    | nil =>
      -- behind the end there are no errors
      show none :: _ = List.takeD (n + 1 - (failures (List.takeD n [] (.ok none))).length) [] none
      rw [Nat.sub_add_comm (hle [])]
      exact congrArg (none :: ·) (ih [])
    | cons result results =>
      cases result with
      | error e =>
        show _ = List.takeD (n + 1 - ((failures (results.takeD n (.ok none))).length + 1)) _ none
        rw [Nat.add_sub_add_right]
        exact ih results
      | ok a =>
        show a :: _ = List.takeD (n + 1 - (failures (results.takeD n (.ok none))).length)
          (a :: results.filterMap Except.toOption) none
        rw [Nat.sub_add_comm (hle results)]
        exact congrArg (a :: ·) (ih results)

end Results

/-! ## Listings told by a script -/

namespace Scripted

/-- The entry of a script by which a page is told, or refused. -/
def Reply.ofPage : Except StoreError Page → Reply
  | .ok page => { (default : Reply) with page }
  | .error e => { (default : Reply) with error := some e }

theorem answering_eq {m : Scripted} {reply : Except StoreError Page} {later : List Reply}
    (c : Client) (q : Query) (h : m.replies = Reply.ofPage reply :: later) :
    backend.answering c q m =
      (reply, { m with records := .list c q :: m.records, replies := later }) := by
  simp only [Backend.answering, backend, call, h]
  cases reply with
  | ok page => rfl
  | error e => rfl

/-- Every listing is told by some script, whatever its pages are and wherever it is refused. -/
theorem exists_supplies {replies : List (Except StoreError Page)} (h : TellsAll replies)
    (c : Client) (q : Query) {m : Scripted} (hm : m.replies = replies.map Reply.ofPage) :
    ∃ inquiries m', Supplies (backend.answering c) q m inquiries m' ∧
      inquiries.map (·.reply) = replies := by
  induction h generalizing q m with
  | last hnext => exact ⟨_, _, .last (answering_eq c q hm) hnext, rfl⟩
  | @more page token later hnext _ ih =>
    obtain ⟨inquiries, m', hsupplies, hreplies⟩ := ih { q with token := some token }
      (m := { m with records := .list c q :: m.records, replies := later.map Reply.ofPage }) rfl
    exact ⟨_, m', .more (answering_eq c q hm) hnext hsupplies, congrArg (_ :: ·) hreplies⟩
  | @failed error later _ ih =>
    obtain ⟨inquiries, m', hsupplies, hreplies⟩ := ih q
      (m := { m with records := .list c q :: m.records, replies := later.map Reply.ofPage }) rfl
    exact ⟨_, m', .failed (answering_eq c q hm) hsupplies, congrArg (_ :: ·) hreplies⟩

end Scripted

namespace Cursor

variable {σ : Type} {list : Query → σ → Except StoreError Page × σ} {c c' : Cursor} {q : Query}
  {s s' t : σ} {page : Page} {i : Listed} {items : List Listed} {outcomes : List Outcome}
  {later rest made asked : List Inquiry}

/-! ## One call -/

theorem nextItem_of_item {rest : Cursor} (h : c.next = .item i rest) :
    nextItem list c s = some (.ok (some i), rest, s) := by
  rw [nextItem, h]

theorem nextItem_of_finished (h : c.next = .finished) :
    nextItem list c s = some (.ok none, c, s) := by
  rw [nextItem, h]

theorem nextItem_of_error {e : StoreError} (h : c.next = .ask q)
    (hlist : list q s = (.error e, s')) :
    nextItem list c s = some (.error e, c, s') := by
  rw [nextItem, h]
  simp only [hlist]

theorem nextItem_of_page (h : c.next = .ask q) (hlist : list q s = (.ok page, s')) :
    nextItem list c s = nextItem list (c.receive page) s' := by
  rw [nextItem, h]
  simp only [hlist]

theorem noting_eq {reply : Except StoreError Page} (h : list q s = (reply, s')) :
    noting list q (s, asked) = (reply, s', asked ++ [⟨q, reply⟩]) := by
  simp only [noting, h]

/-- A cursor behind the last page gives nothing more and asks for nothing. -/
theorem nextItems_of_finished (h : c.next = .finished) (n : Nat) :
    nextItems list n c s = some (List.replicate n (.ok none), c, s) := by
  induction n with
  | zero => rfl
  | succ n ih =>
    rw [nextItems, nextItem_of_finished h]
    simp only [Option.bind_eq_bind, Option.bind_some, ih]
    rfl

/-! ## What a cursor has before it -/

/-- What a cursor will give, errors included, when these inquiries are still to be made. -/
def ahead (c : Cursor) (later : List Inquiry) : List Outcome :=
  c.buffered.map (fun i => .ok (some i)) ++ later.flatMap Inquiry.outcomes

/-- A cursor on its way through a listing, when these inquiries are still to be made. -/
inductive Pending (list : Query → σ → Except StoreError Page × σ) :
    Cursor → σ → List Inquiry → σ → Prop where
  | asking {c : Cursor} {s s' : σ} {later : List Inquiry} : c.exhausted = false →
      Supplies list c.query s later s' → Pending list c s later s'
  | received {c : Cursor} {s : σ} : c.exhausted = true → Pending list c s [] s

/-- Some calls of a cursor: what comes of them, the inquiries that were made for them, and those
that are still to be made. They take the front of what the cursor has before it. -/
structure Course (list : Query → σ → Except StoreError Page × σ) (c : Cursor) (later : List Inquiry)
    (s' : σ) (outcomes : List Outcome) (c' : Cursor) (t : σ) (made rest : List Inquiry) : Prop where
  pending : Pending list c' t rest s'
  split : later = made ++ rest
  failed : failures outcomes = failures (made.map (·.reply))
  taken : outcomes = (c.ahead later).takeD outcomes.length (.ok none)
  left : c'.ahead rest = (c.ahead later).drop outcomes.length
  finished : .ok none ∈ outcomes → c'.next = .finished

theorem Pending.of_finished (h : Pending list c s later s') (hnext : c.next = .finished) :
    later = [] ∧ s' = s := by
  obtain ⟨-, hexhausted⟩ := next_eq_finished_iff.1 hnext
  cases h with
  | asking hasking _ =>
    rw [hexhausted] at hasking
    cases hasking
  | received _ => exact ⟨rfl, rfl⟩

theorem ahead_of_nil (hbuffered : c.buffered = []) :
    c.ahead later = later.flatMap Inquiry.outcomes := by
  rw [ahead, hbuffered]
  rfl

/-- The last page is received. -/
theorem Pending.receive_last (hnext : page.next = none) : Pending list (c.receive page) s [] s := by
  apply Pending.received
  rw [receive, hnext]
  exact Bool.or_true _

/-- A page is received that is not the last one. -/
theorem Pending.receive_more {token : String} (hexhausted : c.exhausted = false)
    (hnext : page.next = some token)
    (hlater : Supplies list { c.query with token := some token } s later s') :
    Pending list (c.receive page) s later s' := by
  apply Pending.asking
  · rw [receive, hnext, hexhausted]
    rfl
  · rw [receive, hnext]
    exact hlater

/-- A page that is received is ahead of the cursor as it was when the page was still to be asked
for. -/
theorem ahead_receive (hbuffered : c.buffered = []) :
    (c.receive page).ahead later = c.ahead (⟨q, .ok page⟩ :: later) := by
  simp only [ahead, receive, hbuffered, List.nil_append, List.map_nil, List.flatMap_cons]
  rfl

/-- The calls of a cursor that has received a page are those of the cursor before that. -/
theorem Course.of_receive (hbuffered : c.buffered = [])
    (h : Course list (c.receive page) later s' outcomes c' t made rest) :
    Course list c (⟨q, .ok page⟩ :: later) s' outcomes c' t (⟨q, .ok page⟩ :: made) rest where
  pending := h.pending
  split := congrArg (_ :: ·) h.split
  failed := h.failed
  taken := by
    rw [← ahead_receive hbuffered]
    exact h.taken
  left := by
    rw [← ahead_receive hbuffered]
    exact h.left
  finished := h.finished

/-- A call of a cursor that has kept an item asks for nothing. -/
theorem Pending.nextItem_buffered (h : Pending list c s later s')
    (hbuffered : c.buffered = i :: items) (asked : List Inquiry) :
    ∃ outcome c' t made rest,
      nextItem (noting list) c (s, asked) = some (outcome, c', t, asked ++ made) ∧
        Course list c later s' [outcome] c' t made rest := by
  refine ⟨.ok (some i), { c with buffered := items }, s, [], later, ?_, ?_⟩
  · rw [nextItem_of_item (next_eq_item_iff.2 ⟨items, hbuffered, rfl⟩), List.append_nil]
  · have hahead : c.ahead later = .ok (some i) :: ahead { c with buffered := items } later := by
      rw [ahead, hbuffered]
      rfl
    refine ⟨?_, rfl, rfl, by rw [hahead]; rfl, by rw [hahead]; rfl, by simp⟩
    cases h with
    | asking hexhausted hsupplies => exact .asking hexhausted hsupplies
    | received hexhausted => exact .received hexhausted

/-- **One call of a cursor** ends, and takes the first of what the cursor has before it. -/
theorem Pending.nextItem (h : Pending list c s later s') (asked : List Inquiry) :
    ∃ outcome c' t made rest,
      nextItem (noting list) c (s, asked) = some (outcome, c', t, asked ++ made) ∧
        Course list c later s' [outcome] c' t made rest := by
  -- a page that is asked for may be empty, and so may the next one: by induction on the inquiries
  induction later generalizing c s asked with
  | nil =>
    cases hbuffered : c.buffered with
    | cons i items => exact h.nextItem_buffered hbuffered asked
    | nil =>
      cases h with
      | asking _ hsupplies => cases hsupplies
      | received hexhausted =>
        have hnext := next_eq_finished_iff.2 ⟨hbuffered, hexhausted⟩
        have hahead : c.ahead [] = [] := ahead_of_nil hbuffered
        refine ⟨.ok none, c, s', [], [], ?_, .received hexhausted, rfl, rfl, ?_, ?_, fun _ => hnext⟩
        · rw [nextItem_of_finished hnext, List.append_nil]
        · rw [hahead]
          rfl
        · rw [hahead]
          rfl
  | cons inquiry later ih =>
    cases hbuffered : c.buffered with
    | cons i items => exact h.nextItem_buffered hbuffered asked
    | nil =>
      cases h with
      | asking hexhausted hsupplies =>
        have hnext := next_eq_ask_iff.2 ⟨hbuffered, hexhausted, rfl⟩
        cases hsupplies with
        | failed hlist hlater =>
          refine ⟨.error _, c, _, [_], later, nextItem_of_error hnext (noting_eq hlist),
            .asking hexhausted hlater, rfl, rfl, ?_, ?_, by simp⟩
          · rw [ahead_of_nil hbuffered]
            rfl
          · rw [ahead_of_nil hbuffered, ahead_of_nil hbuffered]
            rfl
        | last hlist hlast =>
          -- the call goes on with the page that was received, of which `ih` speaks
          obtain ⟨outcome, c', t, made, rest, hcall, hcourse⟩ :=
            ih (Pending.receive_last hlast) (asked ++ [⟨c.query, .ok _⟩])
          refine ⟨outcome, c', t, _ :: made, rest, ?_, hcourse.of_receive hbuffered⟩
          rw [nextItem_of_page hnext (noting_eq hlist), hcall, List.append_assoc]
          rfl
        | more hlist hmore hlater =>
          obtain ⟨outcome, c', t, made, rest, hcall, hcourse⟩ :=
            ih (Pending.receive_more hexhausted hmore hlater) (asked ++ [⟨c.query, .ok _⟩])
          refine ⟨outcome, c', t, _ :: made, rest, ?_, hcourse.of_receive hbuffered⟩
          rw [nextItem_of_page hnext (noting_eq hlist), hcall, List.append_assoc]
          rfl

/-! ## Any number of calls -/

/-- A course of calls behind the first one. -/
theorem Course.cons {outcome : Outcome} {c₁ : Cursor} {s₁ : σ} {first between : List Inquiry}
    (h : Course list c later s' [outcome] c₁ s₁ first between)
    (hcalls : Course list c₁ between s' outcomes c' t made rest)
    (hfinished : c₁.next = .finished → c' = c₁) :
    Course list c later s' (outcome :: outcomes) c' t (first ++ made) rest where
  pending := hcalls.pending
  split := by rw [h.split, hcalls.split, List.append_assoc]
  failed := by
    rw [List.map_append, failures_append, ← h.failed, ← hcalls.failed, ← failures_append]
    rfl
  taken := by
    -- the first call takes the head of what is ahead, and the others the front of the tail
    have hahead : c₁.ahead between = (c.ahead later).tail := h.left.trans List.drop_one
    have hfirst : [outcome] = (c.ahead later).takeD 1 (.ok none) := h.taken
    have hcalls := hcalls.taken
    rw [hahead] at hcalls
    rw [List.length_cons, List.takeD_succ, ← hcalls]
    rw [List.takeD_succ] at hfirst
    exact congrArg (· :: outcomes) (List.head_eq_of_cons_eq hfirst)
  left := by
    rw [hcalls.left, h.left, List.drop_drop]
    exact congrArg (List.drop · _) (Nat.add_comm _ _)
  finished := by
    intro hmem
    rcases List.mem_cons.1 hmem with heq | hmem
    · -- the end was reached by the first call already, and the others stay there
      have hnext := h.finished (List.mem_singleton.2 heq)
      rw [hfinished hnext]
      exact hnext
    · exact hcalls.finished hmem

/-- **Any number of calls of a cursor** take so much of what the cursor has before it. -/
theorem Pending.nextItems (h : Pending list c s later s') (asked : List Inquiry) (n : Nat) :
    ∃ outcomes c' t made rest,
      nextItems (noting list) n c (s, asked) = some (outcomes, c', t, asked ++ made) ∧
        outcomes.length = n ∧ Course list c later s' outcomes c' t made rest := by
  induction n generalizing c s later asked with
  | zero =>
    refine ⟨[], c, s, [], later, ?_, rfl, h, rfl, rfl, rfl, rfl, by simp⟩
    rw [List.append_nil]
    rfl
  | succ n ih =>
    obtain ⟨outcome, c₁, s₁, first, between, hcall, hfirst⟩ := h.nextItem asked
    obtain ⟨outcomes, c', t, made, rest, hcalls, hlength, hcourse⟩ :=
      ih hfirst.pending (asked ++ first)
    refine ⟨outcome :: outcomes, c', t, first ++ made, rest, ?_, ?_, hfirst.cons hcourse ?_⟩
    · rw [Cursor.nextItems, hcall]
      simp only [Option.bind_eq_bind, Option.bind_some, hcalls, ← List.append_assoc]
      rfl
    · rw [List.length_cons, hlength]
    · -- no call moves a cursor on that is at the end
      intro hnext
      rw [nextItems_of_finished hnext] at hcalls
      simp only [Option.some.injEq, Prod.mk.injEq] at hcalls
      exact hcalls.2.1.symm

/-! ## From the start of a listing -/

/-- The first inquiry of a listing is made with its query, and each other one comes next after the
one before it. -/
theorem isChain_of_supplies (h : Supplies list q s later s') :
    (∀ i ∈ later.head?, i.query = q) ∧ later.IsChain Inquiry.Precedes := by
  induction h with
  | last _ _ => exact ⟨by simp, .singleton _⟩
  | @more q s s' s'' page token later _ hnext _ ih =>
    refine ⟨by simp, List.isChain_cons.2 ⟨?_, ih.2⟩⟩
    intro j hj
    exact ⟨token, hnext, ih.1 j hj⟩
  | @failed q s s' s'' error later _ _ ih =>
    refine ⟨by simp, List.isChain_cons.2 ⟨?_, ih.2⟩⟩
    intro j hj
    exact ih.1 j hj

/-- What a cursor gives without the errors are the items of the pages. -/
theorem toOption_outcomes (later : List Inquiry) :
    (later.flatMap Inquiry.outcomes).filterMap Except.toOption =
      (later.flatMap Inquiry.items).map some := by
  induction later with
  | nil => rfl
  | cons i later ih =>
    have hi : i.outcomes.filterMap Except.toOption = i.items.map some := by
      obtain ⟨query, reply⟩ := i
      cases reply with
      | error e => rfl
      | ok page =>
        show (page.items.map fun item => Except.ok (some item)).filterMap Except.toOption =
          page.items.map some
        rw [List.filterMap_map, ← List.filterMap_eq_map]
        rfl
    rw [List.flatMap_cons, List.filterMap_append, hi, ih, List.flatMap_cons, List.map_append]

/-- **A cursor is called again and again, whatever comes of it.** Each call ends. Together they give
the items of all pages in order, with each error where it arose, and then nothing for ever. Without
the errors these are the items of all pages and then nothing. A call that is not answered gives one
error at once, and the same query is asked once more by the next one. Behind the end nothing more is
asked. -/
theorem nextItems_of_supplies {inquiries : List Inquiry} (h : Supplies list q s inquiries s')
    (n : Nat) :
    ∃ outcomes c t asked,
      nextItems (noting list) n (ofQuery q) (s, []) = some (outcomes, c, t, asked) ∧
      outcomes = (inquiries.flatMap Inquiry.outcomes).takeD n (.ok none) ∧
      outcomes.filterMap Except.toOption =
        ((inquiries.flatMap Inquiry.items).map some).takeD (n - (failures outcomes).length) none ∧
      failures outcomes = failures (asked.map (·.reply)) ∧
      asked <+: inquiries ∧ (∀ i ∈ asked.head?, i.query = q) ∧ asked.IsChain Inquiry.Precedes ∧
      (.ok none ∈ outcomes → asked = inquiries ∧ t = s' ∧ ∀ k,
        nextItems (noting list) k c (t, asked) =
          some (List.replicate k (.ok none), c, t, asked)) := by
  obtain ⟨outcomes, c, t, asked, rest, hcalls, hlength, hcourse⟩ :=
    Pending.nextItems (c := ofQuery q) (.asking rfl h) [] n
  have houtcomes : outcomes = (inquiries.flatMap Inquiry.outcomes).takeD n (.ok none) := by
    rw [← hlength]
    exact hcourse.taken
  obtain ⟨hhead, hchain⟩ := isChain_of_supplies h
  rw [hcourse.split] at hhead hchain
  refine ⟨outcomes, c, t, asked, hcalls, houtcomes, ?_, hcourse.failed,
    ⟨rest, hcourse.split.symm⟩, ?_, hchain.left_of_append, ?_⟩
  · rw [houtcomes, ← toOption_outcomes]
    exact toOption_takeD _ n
  · intro i hi
    apply hhead i
    rw [List.head?_append, hi]
    rfl
  · intro hend
    have hnext := hcourse.finished hend
    obtain ⟨hrest, hsame⟩ := hcourse.pending.of_finished hnext
    refine ⟨?_, hsame.symm, fun k => nextItems_of_finished hnext k⟩
    rw [hcourse.split, hrest, List.append_nil]

/-- A script that tells an empty page, a page of two items and another empty page, and that refuses
the first page once and the second one twice. The first call of the cursor fails, the second one
gets the empty page and fails at the next one, and the sixth one comes to the end. -/
theorem nextItems_of_supplies_of_refusals :
    ∃ (a b : Listed) (e : StoreError) (m : Scripted) (inquiries : List Inquiry) (m' : Scripted),
      Supplies (Scripted.backend.answering 1) ⟨"b", "", none, none⟩ m inquiries m' ∧
      a ≠ b ∧ ∃ c t asked,
        nextItems (noting (Scripted.backend.answering 1)) 7 (ofQuery ⟨"b", "", none, none⟩)
            (m, []) =
          some ([.error e, .error e, .error e, .ok (some a), .ok (some b), .ok none, .ok none],
            c, t, asked) ∧
        asked.map (·.query.token) = [none, none, some "1", some "1", some "1", some "2"] := by
  let a : Listed := .object ⟨"a", 1, none⟩
  let b : Listed := .group "b/"
  let e : StoreError := .transport "refused"
  let replies : List (Except StoreError Page) :=
    [.error e, .ok ⟨[], some "1"⟩, .error e, .error e, .ok ⟨[a, b], some "2"⟩, .ok ⟨[], none⟩]
  have hsupplies : Supplies (Scripted.backend.answering 1) ⟨"b", "", none, none⟩
      (.new [] [] (replies.map Scripted.Reply.ofPage)) _ _ :=
    .failed rfl (.more rfl rfl (.failed rfl (.failed rfl (.more rfl rfl (.last rfl rfl)))))
  obtain ⟨outcomes, c, t, asked, hcalls, houtcomes, -, -, -, -, -, hend⟩ :=
    nextItems_of_supplies hsupplies 7
  have hgiven : outcomes =
      [.error e, .error e, .error e, .ok (some a), .ok (some b), .ok none, .ok none] := houtcomes
  subst hgiven
  obtain ⟨hasked, -, -⟩ := hend (by simp)
  exact ⟨a, b, e, _, _, _, hsupplies, nofun, c, t, asked, hcalls, by rw [hasked]; rfl⟩

end Cursor

end Depot
