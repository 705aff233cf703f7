import Depot.Proofs.S3.Walk

/-!
# Where a walk over a network ends

A walk takes one document after the other while the last one says that there is more and brings a
token to ask for it (`goesOn`). So a walk that ends well has gone through all documents up to the
first one that does not go on (`Ends`), whether that one says that there is more or not
(`truncated_walk_succeeds`). The main statement is `walk_ends_where_replies_end`.
-/

set_option autoImplicit false

namespace Depot.S3

open Storage (Env Machine Setup Guide Resting)
open Response (pageOf)

/-- The entries of all items that documents describe. -/
def entriesOf (lead : String) (documents : List ListingDocument) : List Entry :=
  documents.flatMap fun l => (pageOf l).items.map (·.entry lead)

/-- How a walk over some documents ends, with these documents left and these entries visited. -/
inductive Ends (visitor : Visitor) (lead : String) (documents : List ListingDocument) :
    List ListingDocument → List Entry → Except StoreError Unit → Prop where
  /-- All documents up to the first one that does not go on were gone through. -/
  | complete {before rest : List ListingDocument} {last : ListingDocument} :
      documents = before ++ last :: rest → (∀ l ∈ before, l.goesOn = true) →
      last.goesOn = false → Ends visitor lead documents rest (entriesOf lead (before ++ [last]))
        (.ok ())
  /-- The visitor did not let it go on after an entry. -/
  | stopped {used rest : List ListingDocument} {before : List Entry} {e : Entry}
      {error : StoreError} : documents = used ++ rest → before ++ [e] <+: entriesOf lead used →
      visitor before.reverse e = .error error →
      Ends visitor lead documents rest (before ++ [e]) (.error error)
  /-- All documents go on, and there is no reply any more. -/
  | lost : (∀ l ∈ documents, l.goesOn = true) →
      Ends visitor lead documents [] (entriesOf lead documents)
        (.error (.transport "ListObjectsV2: Network dispatch error"))

theorem next_pageOf (l : ListingDocument) : (pageOf l).next.isSome = l.goesOn := by
  unfold pageOf ListingDocument.goesOn
  by_cases h : l.truncated = some true
  · simp [h]
  · simp [h]

theorem entriesOf_concat (lead : String) (documents : List ListingDocument)
    (l : ListingDocument) : entriesOf lead (documents ++ [l]) =
      entriesOf lead documents ++ (pageOf l).items.map (·.entry lead) := by
  rw [entriesOf, List.flatMap_append, List.flatMap_singleton]
  rfl

/-- Documents are split at the first one that does not go on in one way only. -/
theorem split_at_last {before before' rest rest' : List ListingDocument}
    {last last' : ListingDocument} (h : before ++ last :: rest = before' ++ last' :: rest')
    (hbefore : ∀ l ∈ before, l.goesOn = true) (hlast : last.goesOn = false)
    (hbefore' : ∀ l ∈ before', l.goesOn = true) (hlast' : last'.goesOn = false) :
    before = before' ∧ last = last' ∧ rest = rest' := by
  -- what is in front is as much as goes on without a break
  have hfront := congrArg (List.takeWhile ListingDocument.goesOn) h
  rw [List.takeWhile_append_of_pos hbefore, List.takeWhile_append_of_pos hbefore',
    List.takeWhile_cons_of_neg (by simp [hlast]), List.takeWhile_cons_of_neg (by simp [hlast']),
    List.append_nil, List.append_nil] at hfront
  subst hfront
  obtain ⟨rfl, rfl⟩ := List.cons.inj (List.append_cancel_left h)
  exact ⟨rfl, rfl, rfl⟩

/-- A walk that nobody stops succeeds where a document does not go on. -/
theorem Ends.of_last {lead : String} {before after rest : List ListingDocument}
    {last : ListingDocument} {visited : List Entry} {result : Except StoreError Unit}
    (h : Ends (fun _ _ => .ok ()) lead (before ++ last :: after) rest visited result)
    (hbefore : ∀ l ∈ before, l.goesOn = true) (hlast : last.goesOn = false) :
    result = .ok () ∧ rest = after ∧ visited = entriesOf lead (before ++ [last]) := by
  generalize hdocuments : before ++ last :: after = documents at h
  cases h with
  | complete hsplit hbefore' hlast' =>
    obtain ⟨rfl, rfl, rfl⟩ :=
      split_at_last (hdocuments.trans hsplit) hbefore hlast hbefore' hlast'
    exact ⟨rfl, rfl, rfl⟩
  | stopped _ _ hstop => cases hstop
  | lost hall =>
    rw [hall last (by simp [← hdocuments])] at hlast
    cases hlast

/-- The last document of a walk that succeeds does not go on: if it says that there is more, it has
no token to ask for it. -/
theorem Ends.last_of_ok {visitor : Visitor} {lead : String}
    {documents rest : List ListingDocument} {visited : List Entry}
    (h : Ends visitor lead documents rest visited (.ok ())) :
    ∃ before last, documents = before ++ last :: rest ∧
      (last.truncated = some true → last.next = none) := by
  generalize hresult : Except.ok () = result at h
  cases h with
  | @complete before _ last hdocuments _ hlast =>
    refine ⟨before, last, hdocuments, fun htruncated => ?_⟩
    simpa [ListingDocument.goesOn, htruncated] using hlast
  | stopped | lost => cases hresult

/-! ## Documents one after the other -/

section Documents

variable {access : Access} {visitor : Visitor} {q : Query}
  {documents used rest : List ListingDocument} {l : ListingDocument}
  {w : World (List Reply)} {k k' : Walk} {c : Client}

/-- The replies that are left have these documents. -/
def Left (w : World (List Reply)) (rest : List ListingDocument) : Prop :=
  w.network.map (·.listing?) = rest.map some

/-- A request for a listing takes the next document. -/
theorem Left.list (h : Left w (l :: rest)) (hbucket : (Text.trim q.bucket).isEmpty = false)
    (access : Access) (c : Client) :
    ((backend .script access).list c q w).result = .ok (pageOf l) ∧
      Left ((backend .script access).list c q w).world rest := by
  obtain ⟨network, nextClient, sent⟩ := w
  cases network with
  | nil => cases h
  | cons reply replies =>
    obtain ⟨hlisting, hreplies⟩ := List.cons.inj h
    have hnext :
        (Network.script.send (.list access.signature q) (reply :: replies)).2.listing? = some l :=
      hlisting
    obtain ⟨hresult, hworld⟩ :=
      list_of_listing (c := c) (w := ⟨reply :: replies, nextClient, sent⟩) hbucket hnext
    rw [hworld]
    exact ⟨hresult, hreplies⟩

/-- Without a document left there is no reply. -/
theorem Left.lost (h : Left w []) (hbucket : (Text.trim q.bucket).isEmpty = false)
    (access : Access) (c : Client) :
    ((backend .script access).list c q w).result =
        .error (.transport "ListObjectsV2: Network dispatch error") ∧
      Left ((backend .script access).list c q w).world [] := by
  have hnil : w.network = [] := List.map_eq_nil_iff.1 h
  have hsend := isSendable_list (q := q) access.signature hbucket
  simp only [backend, telling, exchange, if_pos hsend, hnil]
  exact ⟨rfl, rfl⟩

/-- How far a walk is through some documents: it knows the entries of those that were used, and all
of them go on but the last one of a walk that asks for no more. -/
structure Takes (visitor : Visitor) (q : Query) (k : Walk) (used : List ListingDocument) : Prop
    extends k.IsFor q visitor where
  seen : k.seen = entriesOf q.lead used
  goesOn : k.cursor.exhausted = false → ∀ l ∈ used, l.goesOn = true
  exhausted : k.cursor.exhausted = true → ∃ before last, used = before ++ [last] ∧
    (∀ l ∈ before, l.goesOn = true) ∧ last.goesOn = false

theorem Takes.start (visitor : Visitor) (q : Query) : Takes visitor q (.ofQuery q visitor) [] where
  toIsFor := .start q visitor
  seen := rfl
  goesOn := nofun
  exhausted := nofun

theorem Takes.visit (h : Takes visitor q k used) (hstep : k.step = .visited k') :
    Takes visitor q k' used ∧ k'.cursor.buffered.length < k.cursor.buffered.length := by
  obtain ⟨hk', hseen, -, i, hbuffered, hcursor⟩ := h.toIsFor.visit hstep
  have hexhausted : k'.cursor.exhausted = k.cursor.exhausted := by rw [hcursor]
  refine ⟨⟨hk', hseen.trans h.seen, ?_, ?_⟩, ?_⟩
  · rw [hexhausted]
    exact h.goesOn
  · rw [hexhausted]
    exact h.exhausted
  · rw [hbuffered]
    exact Nat.lt_succ_self _

/-- The next document is used. -/
theorem Takes.receive (h : Takes visitor q k used) (hexhausted : k.cursor.exhausted = false)
    (l : ListingDocument) : Takes visitor q (k.receive (pageOf l)) (used ++ [l]) := by
  obtain ⟨hk', hseen⟩ := h.toIsFor.receive (pageOf l)
  have hgoesOn : (k.receive (pageOf l)).cursor.exhausted = !l.goesOn := by
    simp only [Walk.receive, Cursor.receive, hexhausted, Bool.false_or, ← next_pageOf,
      Option.not_isSome]
  refine ⟨hk', ?_, ?_, ?_⟩
  · rw [hseen, h.seen, entriesOf_concat]
  · intro hopen l' hl'
    rw [hgoesOn, Bool.not_eq_false'] at hopen
    rcases List.mem_append.1 hl' with hl' | hl'
    · -- the documents before were used by a walk that had to ask for this one
      exact h.goesOn hexhausted l' hl'
    · rw [List.mem_singleton.1 hl', hopen]
  · intro hclosed
    rw [hgoesOn, Bool.not_eq_true'] at hclosed
    exact ⟨used, l, rfl, h.goesOn hexhausted, hclosed⟩

/-- **The last step of a walk.** It has visited all entries of the documents that were used, or it
was stopped. -/
theorem Takes.finish {result : Except StoreError Unit} (h : Takes visitor q k used)
    (hstep : k.step = .finished k' result) :
    Ends visitor q.lead (used ++ rest) rest k'.visited.reverse result := by
  rcases h.toIsFor.finish hstep with
    ⟨rfl, rfl, hexhausted, hvisited⟩ | ⟨before, e, error, rfl, hvisited, hprefix, hstop⟩
  · obtain ⟨before, last, rfl, hbefore, hlast⟩ := h.exhausted hexhausted
    rw [hvisited, h.seen]
    exact .complete (by simp) hbefore hlast
  · rw [hvisited]
    rw [h.seen] at hprefix
    exact .stopped rfl hprefix hstop

/-- How much there is to come with the replies that are left. -/
def awaited (w : World (List Reply)) : Nat :=
  (w.network.map fun reply => reply.listing?.elim 0 fun l => (pageOf l).items.length + 1).sum

theorem Left.awaited_eq (h : Left w rest) :
    awaited w = (rest.map fun l => (pageOf l).items.length + 1).sum := by
  have hmap := congrArg (List.map fun o : Option ListingDocument =>
    o.elim 0 fun l => (pageOf l).items.length + 1) h
  rw [List.map_map, List.map_map] at hmap
  exact congrArg List.sum hmap

/-- **One document.** A walk that asks for a page gets the next document, or there is no reply. -/
theorem Takes.list {q' : Query} (h : Takes visitor q k used) (hleft : Left w rest)
    (hbucket : (Text.trim q.bucket).isEmpty = false) (hstep : k.step = .ask q') (access : Access)
    (c : Client) :
    let a := (backend .script access).list c q' w
    (∃ l later, rest = l :: later ∧ a.result = .ok (pageOf l) ∧ Left a.world later ∧
      Takes visitor q (k.receive (pageOf l)) (used ++ [l]) ∧
      awaited a.world + (k.receive (pageOf l)).cursor.buffered.length <
        awaited w + k.cursor.buffered.length) ∨
      ∃ e, a.result = .error e ∧ Left a.world rest ∧
        Ends visitor q.lead (used ++ rest) rest k.visited.reverse (.error e) := by
  obtain ⟨hbuffered, hexhausted, rfl⟩ := h.toIsFor.ask hstep
  cases rest with
  | nil =>
    obtain ⟨hresult, hleft'⟩ :=
      hleft.lost (q := { q with token := k.cursor.query.token }) hbucket access c
    refine Or.inr ⟨_, hresult, hleft', ?_⟩
    -- all entries that the walk knows were visited
    have hseen := h.seen
    rw [Walk.seen, hbuffered, List.map_nil, List.append_nil] at hseen
    rw [hseen, List.append_nil]
    exact .lost (h.goesOn hexhausted)
  | cons l later =>
    obtain ⟨hresult, hleft'⟩ :=
      hleft.list (q := { q with token := k.cursor.query.token }) hbucket access c
    refine Or.inl ⟨l, later, rfl, hresult, hleft', h.receive hexhausted l, ?_⟩
    rw [hleft'.awaited_eq, hleft.awaited_eq, List.map_cons, List.sum_cons]
    simp only [Walk.receive, Cursor.receive, hbuffered, List.nil_append, List.length_nil]
    omega

end Documents

/-! ## Walks -/

section Walks

variable {access : Access} {documents : List ListingDocument}

/-- The guide of a walk over some documents. -/
def guideOf (access : Access) (setup : Setup)
    (hbucket : (Text.trim setup.bucket).isEmpty = false) (documents : List ListingDocument)
    (path : String) (recursive : Bool) (visitor : Visitor) :
    Guide (⟨setup, backend .script access⟩ : Env (World (List Reply)) Writer) path recursive
      visitor where
  Start w := Left w documents
  On w k := ∃ used rest, documents = used ++ rest ∧ Left w rest ∧
    Takes visitor (setup.query path recursive) k used
  left w k := awaited w + k.cursor.buffered.length
  End w visited result := ∃ rest, Left w rest ∧
    Ends visitor (setup.query path recursive).lead documents rest visited result
  valid _ _ := rfl
  create := fun hstart => ⟨rfl, hstart⟩
  begin := fun hstart => ⟨[], documents, rfl, hstart, .start visitor _⟩
  visit := by
    rintro w k k' ⟨used, rest, hdocuments, hleft, hk⟩ hstep
    obtain ⟨hk', hless⟩ := hk.visit hstep
    exact ⟨⟨used, rest, hdocuments, hleft, hk'⟩, Nat.add_lt_add_left hless _⟩
  finish := by
    rintro w k k' result ⟨used, rest, rfl, hleft, hk⟩ hstep
    exact ⟨rest, hleft, hk.finish hstep⟩
  receive := by
    rintro c w k q page ⟨used, rest, rfl, hleft, hk⟩ hstep hresult
    rcases hk.list hleft hbucket hstep access c with
      ⟨l, later, rfl, hok, hleft', hk', hless⟩ | ⟨e, herror, -⟩
    · obtain rfl := Except.ok.inj (hresult.symm.trans hok)
      exact ⟨⟨used ++ [l], later, by simp, hleft', hk'⟩, hless⟩
    · cases hresult.symm.trans herror
  fail := by
    rintro c w k q e ⟨used, rest, rfl, hleft, hk⟩ hstep hresult
    rcases hk.list hleft hbucket hstep access c with ⟨l, later, rfl, hok, -⟩ | ⟨e', herror, hend⟩
    · cases hresult.symm.trans hok
    · obtain rfl := Except.error.inj (hresult.symm.trans herror)
      exact ⟨rest, hend⟩
  destroy := fun hend => hend

/-- A storage is connected without a request. -/
theorem Left.exists_connect {files : LocalFiles} {config : Config}
    (hvalid : config.validate = .ok ()) (haccess : Access.ofConfig files config = .ok access)
    {replies : List Reply} (hreplies : replies.map (·.listing?) = documents.map some) :
    ∃ m, connect files .script config replies =
        .ok (⟨.ofConfig kind config, backend .script access⟩, m) ∧
      Resting m ∧ Left m.world documents := by
  obtain ⟨m, hm, hconnect⟩ := S3.exists_connect hvalid haccess .script replies
  obtain ⟨hnetwork, -⟩ := world_of_connect hm
  refine ⟨m, hconnect, .of_connect hm, ?_⟩
  rw [Left, hnetwork]
  exact hreplies

/-- **A walk ends where the replies end.** The replies are documents of listings of any contents,
one for each request, and none when there are no more of them. Then the walk of any path with any
visitor comes to an end, and however the steps are scheduled, it ends in one of three ways:

- it succeeds, having visited all entries of the documents up to the first one that does not go on,
  which is the last one that it has taken;
- it fails where its visitor does;
- it fails because there is no reply, having visited all entries of all documents, which all go
  on.

So the last document of a walk that succeeds says that there is more only if it has no token to ask
for it. -/
theorem walk_ends_where_replies_end {files : LocalFiles} {config : Config}
    (hvalid : config.validate = .ok ()) (haccess : Access.ofConfig files config = .ok access)
    {replies : List Reply} (hreplies : replies.map (·.listing?) = documents.map some)
    (path : String) (recursive : Bool) (visitor : Visitor) :
    let env : Env (World (List Reply)) Writer := ⟨.ofConfig kind config, backend .script access⟩
    ∃ m, connect files .script config replies = .ok (env, m) ∧
      (∃ visited result m', m.Tours env path recursive visitor visited result m') ∧
      ∀ visited result m', m.Tours env path recursive visitor visited result m' →
        ∃ rest, m'.world.network.map (·.listing?) = rest.map some ∧
          Ends visitor (env.setup.query path recursive).lead documents rest visited result ∧
          (result = .ok () → ∃ before last, documents = before ++ last :: rest ∧
            (last.truncated = some true → last.next = none)) := by
  intro env
  obtain ⟨m, hconnect, hresting, hleft⟩ := Left.exists_connect hvalid haccess hreplies
  obtain ⟨hbucket, -⟩ := (Config.validate_eq_ok_iff config).1 hvalid
  let guide := guideOf access (.ofConfig kind config) hbucket documents path recursive visitor
  refine ⟨m, hconnect, guide.exists_tours hresting hleft, fun visited result m' htours => ?_⟩
  obtain ⟨⟨rest, hrest, hends⟩, -⟩ := guide.of_tours hresting hleft htours
  refine ⟨rest, hrest, hends, ?_⟩
  rintro rfl
  exact hends.last_of_ok

/-- A reply with a document. -/
def replyOf (l : ListingDocument) : Reply :=
  .response ⟨200, [], none, none, .empty, .listing l, true⟩

/-- A document without contents that goes on is followed by the last one. -/
theorem walk_ends_where_replies_end_of_empty :
    ∃ (config : Config) (l last : ListingDocument) (m m' : Machine (World (List Reply)) Writer)
      (visited : List Entry),
      let env : Env (World (List Reply)) Writer :=
        ⟨.ofConfig kind config, backend .script .unsigned⟩
      l.goesOn = true ∧ last.goesOn = false ∧
      connect (fun _ => .error .missingFile) .script config [replyOf l, replyOf last] =
        .ok (env, m) ∧
      m.Tours env "" true (fun _ _ => .ok ()) visited (.ok ()) m' ∧
      visited.map (·.name) = ["a"] ∧ m'.world.network = [] := by
  let config : Config :=
    { Config.standard with bucket := "b", endpoint := some "http://localhost" }
  let l : ListingDocument := ⟨[], [], some true, some "t"⟩
  let last : ListingDocument := ⟨[⟨some "a", some 1, none⟩], [], none, none⟩
  have hvalid : config.validate = .ok () :=
    Config.validate_endpoint (Config.validate_standard (by decide)) rfl
  obtain ⟨m, hconnect, ⟨visited, result, m', htours⟩, hends⟩ :=
    @walk_ends_where_replies_end .unsigned [l, last]
      (fun _ => .error .missingFile) config hvalid rfl [replyOf l, replyOf last] rfl "" true
      fun _ _ => .ok ()
  obtain ⟨rest, hrest, hend, -⟩ := hends visited result m' htours
  have hbefore : ∀ l' ∈ [l], l'.goesOn = true := by simp [l, ListingDocument.goesOn]
  obtain ⟨rfl, rfl, rfl⟩ := hend.of_last hbefore rfl
  refine ⟨config, l, last, m, m', _, rfl, rfl, hconnect, htours, by decide +kernel, ?_⟩
  exact List.map_eq_nil_iff.1 hrest

/-- A walk that nobody stops succeeds although the one document that it has taken says that there is
more, because it does not say with which token to ask for it. -/
theorem truncated_walk_succeeds :
    ∃ (config : Config) (l : ListingDocument) (m m' : Machine (World (List Reply)) Writer)
      (visited : List Entry),
      let env : Env (World (List Reply)) Writer :=
        ⟨.ofConfig kind config, backend .script .unsigned⟩
      l.truncated = some true ∧
      connect (fun _ => .error .missingFile) .script config [replyOf l] = .ok (env, m) ∧
      m.Tours env "" true (fun _ _ => .ok ()) visited (.ok ()) m' ∧
      visited.map (·.name) = ["a"] ∧ m'.world.network = [] := by
  let config : Config :=
    { Config.standard with bucket := "b", endpoint := some "http://localhost" }
  let l : ListingDocument := ⟨[⟨some "a", some 1, none⟩], [], some true, none⟩
  have hvalid : config.validate = .ok () :=
    Config.validate_endpoint (Config.validate_standard (by decide)) rfl
  obtain ⟨hbucket, -⟩ := (Config.validate_eq_ok_iff config).1 hvalid
  obtain ⟨m, hconnect, hresting, hleft⟩ :=
    @Left.exists_connect .unsigned [l]
      (fun _ => .error .missingFile) config hvalid rfl [replyOf l] rfl
  let guide := guideOf .unsigned (.ofConfig kind config) hbucket
    [l] "" true fun _ _ => .ok ()
  obtain ⟨visited, result, m', htours⟩ := guide.exists_tours hresting hleft
  obtain ⟨⟨rest, hrest, hend⟩, -⟩ := guide.of_tours hresting hleft htours
  have hbefore : ∀ l' ∈ ([] : List ListingDocument), l'.goesOn = true := nofun
  obtain ⟨rfl, rfl, rfl⟩ := hend.of_last hbefore rfl
  refine ⟨config, l, m, m', _, rfl, hconnect, htours, by decide +kernel, ?_⟩
  exact List.map_eq_nil_iff.1 hrest

end Walks

end Depot.S3
