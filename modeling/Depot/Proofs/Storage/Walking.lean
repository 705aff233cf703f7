import Depot.Proofs.Storage.Course
import Depot.Storage.Traversal

/-!
# Walks over any backend

A walk that has the storage to itself visits what is buffered, asks for a page when nothing is, and
ends. What holds of it from one of these steps to the next, and how much is left of it, is put
together in a `Guide`: with one, every walk comes to an end (`Guide.exists_tours`), and whenever it
does, what the guide says of the end holds (`Guide.of_tours`). Where it is known which pages remain
at every moment (`Pager`), a walk that nobody stops goes through all of them (`Pager.of_walks`).
-/

set_option autoImplicit false

namespace Depot

/-! ## Steps of a walk -/

namespace Walk

variable {k k' : Walk} {q : Query} {result : Except StoreError Unit}

/-- A page is asked for when nothing is buffered and there is one more. -/
theorem step_eq_ask_iff : k.step = .ask q ↔
    k.cursor.buffered = [] ∧ k.cursor.exhausted = false ∧ q = k.cursor.query := by
  rw [← Cursor.next_eq_ask_iff]
  unfold step
  cases k.cursor.next with
  | ask query => simp
  | finished => simp
  | item i rest =>
    simp only [reduceCtorEq, iff_false]
    split <;> nofun

/-- An entry is visited that was buffered. -/
theorem step_eq_visited (h : k.step = .visited k') : ∃ i rest, k.cursor.buffered = i :: rest ∧
    k.visitor k.visited (i.entry k.lead) = .ok () ∧
    k' = { k with
      cursor := { k.cursor with buffered := rest }, visited := i.entry k.lead :: k.visited } := by
  unfold step at h
  cases hnext : k.cursor.next with
  | ask query =>
    rw [hnext] at h
    cases h
  | finished =>
    rw [hnext] at h
    cases h
  | item i rest =>
    obtain ⟨items, hbuffered, rfl⟩ := Cursor.next_eq_item_iff.1 hnext
    simp only [hnext] at h
    cases hvisitor : k.visitor k.visited (i.entry k.lead) with
    | ok _ =>
      simp only [hvisitor] at h
      cases h
      exact ⟨i, items, hbuffered, hvisitor, rfl⟩
    | error e =>
      simp only [hvisitor] at h
      cases h

/-- A walk ends when the last page is used up, or when the visitor does not let it go on. -/
theorem step_eq_finished (h : k.step = .finished k' result) :
    result = .ok () ∧ k' = k ∧ k.cursor.buffered = [] ∧ k.cursor.exhausted = true ∨
      ∃ i rest e, k.cursor.buffered = i :: rest ∧ result = .error e ∧
        k.visitor k.visited (i.entry k.lead) = .error e ∧
        k' = { k with
          cursor := { k.cursor with buffered := rest },
          visited := i.entry k.lead :: k.visited } := by
  unfold step at h
  cases hnext : k.cursor.next with
  | ask query =>
    rw [hnext] at h
    cases h
  | finished =>
    rw [hnext] at h
    cases h
    exact Or.inl ⟨rfl, rfl, Cursor.next_eq_finished_iff.1 hnext⟩
  | item i rest =>
    obtain ⟨items, hbuffered, rfl⟩ := Cursor.next_eq_item_iff.1 hnext
    simp only [hnext] at h
    cases hvisitor : k.visitor k.visited (i.entry k.lead) with
    | ok _ =>
      simp only [hvisitor] at h
      cases h
    | error e =>
      simp only [hvisitor] at h
      cases h
      exact Or.inr ⟨i, items, e, hbuffered, rfl, hvisitor, rfl⟩

/-! ## What a walk has come to know -/

section Seen

variable {visitor : Visitor}

/-- The entries that a walk has come to know, in order: those that it has visited, and those of what
is buffered. -/
def seen (k : Walk) : List Entry := k.visited.reverse ++ k.cursor.buffered.map (·.entry k.lead)

/-- A walk is one of the pages of a query. -/
structure IsFor (q : Query) (visitor : Visitor) (k : Walk) : Prop where
  lead : k.lead = q.lead
  visitor : k.visitor = visitor
  query : k.cursor.query = { q with token := k.cursor.query.token }

theorem IsFor.start (q : Query) (visitor : Visitor) : (ofQuery q visitor).IsFor q visitor :=
  ⟨rfl, rfl, rfl⟩

/-- A visit uses up what is buffered, and brings nothing new. -/
theorem IsFor.visit (h : k.IsFor q visitor) (hstep : k.step = .visited k') :
    k'.IsFor q visitor ∧ k'.seen = k.seen ∧ k'.visited.length = k.visited.length + 1 ∧
      ∃ i, k.cursor.buffered = i :: k'.cursor.buffered ∧
        k'.cursor = { k.cursor with buffered := k'.cursor.buffered } := by
  obtain ⟨i, rest, hbuffered, -, rfl⟩ := step_eq_visited hstep
  refine ⟨⟨h.lead, h.visitor, h.query⟩, ?_, rfl, i, hbuffered, rfl⟩
  simp only [seen, hbuffered, List.reverse_cons, List.map_cons, List.append_assoc,
    List.singleton_append]

/-- What is asked for is one more page of the query. -/
theorem IsFor.ask {q' : Query} (h : k.IsFor q visitor) (hstep : k.step = .ask q') :
    k.cursor.buffered = [] ∧ k.cursor.exhausted = false ∧
      q' = { q with token := k.cursor.query.token } := by
  obtain ⟨hbuffered, hexhausted, rfl⟩ := step_eq_ask_iff.1 hstep
  exact ⟨hbuffered, hexhausted, h.query⟩

/-- A page brings the entries of its items. -/
theorem IsFor.receive (h : k.IsFor q visitor) (page : Page) :
    (k.receive page).IsFor q visitor ∧
      (k.receive page).seen = k.seen ++ page.items.map (·.entry q.lead) := by
  refine ⟨⟨h.lead, h.visitor, ?_⟩, ?_⟩
  · simp only [Walk.receive, Cursor.receive]
    rw [h.query]
  · rw [← h.lead]
    simp only [seen, Walk.receive, Cursor.receive, List.map_append, List.append_assoc]

/-- At the end of a walk all was visited that it has come to know, or it was stopped at an entry
that it knew. -/
theorem IsFor.finish {result : Except StoreError Unit} (h : k.IsFor q visitor)
    (hstep : k.step = .finished k' result) :
    result = .ok () ∧ k' = k ∧ k.cursor.exhausted = true ∧ k'.visited.reverse = k.seen ∨
      ∃ before e error, result = .error error ∧ k'.visited.reverse = before ++ [e] ∧
        before ++ [e] <+: k.seen ∧ visitor before.reverse e = .error error := by
  rcases step_eq_finished hstep with
    ⟨rfl, rfl, hbuffered, hexhausted⟩ | ⟨i, rest, error, hbuffered, rfl, hstop, rfl⟩
  · refine Or.inl ⟨rfl, rfl, hexhausted, ?_⟩
    rw [seen, hbuffered, List.map_nil, List.append_nil]
  · rw [h.visitor] at hstop
    refine Or.inr ⟨k.visited.reverse, i.entry k.lead, error, rfl, List.reverse_cons, ?_, ?_⟩
    · exact ⟨rest.map (·.entry k.lead), by simp [seen, hbuffered]⟩
    · rw [List.reverse_reverse]
      exact hstop

end Seen

/-! ## Going through pages -/

section Through

variable {τ : Type} {tell : Entry → τ} {all : List τ} {pages : List Page} {first page : Page}

/-- How far a walk is that nobody stops: it knows some entries, and these pages are to be asked for.
Only what is told of entries counts. -/
structure Through (tell : Entry → τ) (q : Query) (all : List τ) (k : Walk)
    (pages : List Page) : Prop extends k.IsFor q (fun _ _ => .ok ()) where
  told : all =
    k.seen.map tell ++ (pages.flatMap (·.items)).map fun i => tell (i.entry q.lead)
  exhausted : k.cursor.exhausted = true ↔ pages = []

theorem Through.start (tell : Entry → τ) (q : Query) (hne : pages ≠ []) :
    (ofQuery q fun _ _ => .ok ()).Through tell q
      ((pages.flatMap (·.items)).map fun i => tell (i.entry q.lead)) pages where
  toIsFor := .start q _
  told := rfl
  exhausted := ⟨nofun, fun h => absurd h hne⟩

/-- How many steps a walk makes at most until all entries of a number of them are visited. -/
def ahead (total : Nat) (k : Walk) : Nat :=
  2 * (total - k.visited.length) +
    if k.cursor.exhausted = false ∧ k.cursor.buffered = [] then 1 else 0

theorem Through.length_eq (h : k.Through tell q all pages) :
    k.visited.length + k.cursor.buffered.length + (pages.flatMap (·.items)).length =
      all.length := by
  rw [h.told]
  simp only [seen, List.length_append, List.length_map, List.length_reverse]

theorem Through.visit (h : k.Through tell q all pages) (hstep : k.step = .visited k') :
    k'.Through tell q all pages ∧ k'.ahead all.length < k.ahead all.length ∧
      k'.cursor.query = k.cursor.query := by
  obtain ⟨hk', hseen, hvisited, i, hbuffered, hcursor⟩ := h.toIsFor.visit hstep
  refine ⟨⟨hk', ?_, ?_⟩, ?_, ?_⟩
  · rw [hseen]
    exact h.told
  · rw [hcursor]
    exact h.exhausted
  · -- one more entry is visited, and at worst a page has to be asked for next
    have hlength := h.length_eq
    rw [hbuffered, List.length_cons] at hlength
    simp only [ahead, hvisited, hbuffered, reduceCtorEq, and_false, if_false]
    split
    · omega
    · omega
  · rw [hcursor]

/-- A walk that nobody stops ends when all is visited. -/
theorem Through.finish {result : Except StoreError Unit} (h : k.Through tell q all pages)
    (hstep : k.step = .finished k' result) :
    result = .ok () ∧ k'.visited.reverse.map tell = all ∧ k' = k ∧ pages = [] := by
  rcases h.toIsFor.finish hstep with
    ⟨rfl, rfl, hexhausted, hvisited⟩ | ⟨before, e, error, -, -, -, hstop⟩
  · obtain rfl := h.exhausted.1 hexhausted
    refine ⟨rfl, ?_, rfl, rfl⟩
    rw [hvisited, h.told]
    exact (List.append_nil _).symm
  · cases hstop

theorem Through.ask {q' : Query} (h : k.Through tell q all pages) (hstep : k.step = .ask q') :
    k.cursor.buffered = [] ∧ pages ≠ [] ∧ q' = { q with token := k.cursor.query.token } := by
  obtain ⟨hbuffered, hexhausted, rfl⟩ := h.toIsFor.ask hstep
  refine ⟨hbuffered, fun hnil => ?_, rfl⟩
  rw [h.exhausted.2 hnil] at hexhausted
  cases hexhausted

/-- A page brings what was to be asked for next, and it brings something unless it is the last
one. -/
theorem Through.receive (h : k.Through tell q all (first :: pages))
    (hbuffered : k.cursor.buffered = []) (hlast : page.next = none ↔ pages = [])
    (hitems : (page.items.map fun i => tell (i.entry q.lead)) =
      first.items.map fun i => tell (i.entry q.lead))
    (hne : pages ≠ [] → first.items ≠ []) :
    (k.receive page).Through tell q all pages ∧
      (k.receive page).ahead all.length < k.ahead all.length := by
  have hexhausted : k.cursor.exhausted = false :=
    Bool.eq_false_iff.2 fun hclosed => List.cons_ne_nil _ _ (h.exhausted.1 hclosed)
  obtain ⟨hk', hseen⟩ := h.toIsFor.receive page
  refine ⟨⟨hk', ?_, ?_⟩, ?_⟩
  · rw [h.told, hseen, List.map_append, List.map_map, List.flatMap_cons, List.map_append, ← hitems,
      List.append_assoc]
    rfl
  · simp [Walk.receive, Cursor.receive, hexhausted, hlast]
  · -- after the page there is an entry to visit, or there is nothing to ask for
    have hfull : ¬ (page.next.isNone = false ∧ page.items = []) := by
      rintro ⟨hmore, hempty⟩
      rw [hempty, List.map_nil, eq_comm, List.map_eq_nil_iff] at hitems
      refine hne (fun hnil => ?_) hitems
      rw [hlast.2 hnil] at hmore
      cases hmore
    simp only [ahead, Walk.receive, Cursor.receive, hexhausted, hbuffered, Bool.false_or,
      List.nil_append, if_neg hfull, and_self, if_true]
    exact Nat.lt_succ_self _

end Through

end Walk

namespace Storage

variable {World Writer : Type} {env : Env World Writer} {path : String} {recursive : Bool}
  {visitor : Visitor}

/-! ## Guides -/

/-- What there is to know of the walks of a path with a visitor that begin over some states of the
backend. -/
structure Guide (env : Env World Writer) (path : String) (recursive : Bool)
    (visitor : Visitor) where
  /-- Over which states of the backend a walk is asked for. -/
  Start : World → Prop
  /-- What holds while a walk goes on. -/
  On : World → Walk → Prop
  /-- How much is left of a walk. -/
  left : World → Walk → Nat
  /-- What holds when a walk has come to a result, with these entries visited, in order. -/
  End : World → List Entry → Except StoreError Unit → Prop
  valid : ∀ c w, env.backend.isValid c w = true
  create : ∀ {w}, Start w →
    (env.backend.create w).result = .ok () ∧ Start (env.backend.create w).world
  begin : ∀ {w}, Start w → On w (.ofQuery (env.setup.query path recursive) visitor)
  visit : ∀ {w k k'}, On w k → k.step = .visited k' → On w k' ∧ left w k' < left w k
  finish : ∀ {w k k' result}, On w k → k.step = .finished k' result →
    End w k'.visited.reverse result
  receive : ∀ {c w k q page}, On w k → k.step = .ask q →
    (env.backend.list c q w).result = .ok page →
    On (env.backend.list c q w).world (k.receive page) ∧
      left (env.backend.list c q w).world (k.receive page) < left w k
  fail : ∀ {c w k q e}, On w k → k.step = .ask q →
    (env.backend.list c q w).result = .error e →
    End (env.backend.list c q w).world k.visited.reverse (.error e)
  destroy : ∀ {c w entries e}, End w entries (.error e) →
    End (env.backend.destroy c w).world entries (.error e)

namespace Guide

/-- Where a task is that walks with a guide. -/
inductive Leads (guide : Guide env path recursive visitor) :
    World → List Entry → Phase Writer → Prop where
  | start {w : World} {visited : List Entry} : guide.Start w →
      Leads guide w visited (.start (.walk path recursive visitor))
  | created {w : World} {visited : List Entry} {k : Walk} : guide.Start w →
      k = .ofQuery (env.setup.query path recursive) visitor →
      Leads guide w visited (.created (.walk k) (.ok ()))
  | lent {w : World} {visited : List Entry} {k : Walk} : guide.Start w →
      k = .ofQuery (env.setup.query path recursive) visitor →
      Leads guide w visited (.lent (.walk k))
  | walking {w : World} {visited : List Entry} {k : Walk} : guide.On w k →
      Leads guide w visited (.walking k)
  | listed {w : World} {visited : List Entry} {k : Walk} {page : Page} :
      guide.On w (k.receive page) → Leads guide w visited (.listed k (.ok page))
  | unlisted {w : World} {visited : List Entry} {k : Walk} {e : StoreError} :
      guide.End w visited.reverse (.error e) → Leads guide w visited (.listed k (.error e))
  | invalidated {w : World} {visited : List Entry} {reply : Except StoreError Unit}
      {e : StoreError} : guide.End w visited.reverse (.error e) →
      Leads guide w visited (.invalidated reply (.error e))
  | ended {w : World} {visited : List Entry} {outcome : Except StoreError Outcome} :
      guide.End w visited.reverse (outcome.map fun _ => ()) →
      Leads guide w visited (.ended outcome)

/-- How much is left of a walk in a phase. Asking for a page takes two steps. -/
def ahead (guide : Guide env path recursive visitor) (w : World) : Phase Writer → Nat
  | .walking k => 2 * guide.left w k + 1
  | .listed k (.ok page) => 2 * guide.left w (k.receive page) + 2
  | _ => 0

/-- **One step of a walk.** It is on its way, with less of it left, or it comes to its end. -/
theorem Leads.works {guide : Guide env path recursive visitor} {c : Client} {w : World}
    {visited : List Entry} {phase : Phase Writer} {work : Work World Writer}
    (h : guide.Leads w visited phase) (hw : Works env c w visited phase work) :
    work.Reaches env guide.Leads guide.ahead (guide.ahead w) phase := by
  cases h with
  | start _ | created _ _ | invalidated _ | ended _ => cases hw
  | lent hstart hk =>
    cases hw with
    | walk =>
      rw [hk]
      exact ⟨.walking (guide.begin hstart), Phase.nearer_of_lt (by simp [Phase.part])⟩
  | @walking k hon =>
    cases hw with
    | visit hstep =>
      obtain ⟨hon', hless⟩ := guide.visit hon hstep
      refine ⟨.walking hon', Phase.nearer_of_eq rfl ?_⟩
      simp only [ahead]
      omega
    | walked hstep =>
      exact ⟨.ended (guide.finish hon hstep), Phase.nearer_of_lt (by simp [Phase.part])⟩
    | stopped hstep =>
      -- whichever client is destroyed, the end of the walk is not undone
      exact fun c => .invalidated (guide.destroy (guide.finish hon hstep))
    | @ask _ q a hstep ha =>
      subst ha
      show guide.Leads _ _ (.listed k _) ∧ Phase.Nearer _ _ (.listed k _) _
      cases hresult : (env.backend.list c q w).result with
      | ok page =>
        obtain ⟨hon', hless⟩ := guide.receive hon hstep hresult
        refine ⟨.listed hon', Phase.nearer_of_eq rfl ?_⟩
        simp only [ahead]
        omega
      | error e =>
        refine ⟨.unlisted (guide.fail hon hstep hresult), Phase.nearer_of_eq rfl ?_⟩
        simp only [ahead]
        omega
  | listed hon =>
    cases hw with
    | listed =>
      refine ⟨.walking hon, Phase.nearer_of_eq rfl ?_⟩
      simp only [ahead]
      omega
  | unlisted hend =>
    cases hw with
    | unlisted => exact fun c => .invalidated (guide.destroy hend)

/-- The course of a walk with a guide. -/
def toCourse (guide : Guide env path recursive visitor) : Course env where
  On := guide.Leads
  left := guide.ahead
  valid := guide.valid
  alone := by
    rintro w visited phase h
    cases h <;> trivial
  deny := by
    rintro w visited r e h hgoal
    cases h with
    | start _ => cases hgoal
  create := by
    rintro w visited r g h hgoal
    cases h with
    | start hstart =>
      cases hgoal
      obtain ⟨hresult, hcreated⟩ := guide.create hstart
      rw [hresult]
      exact .created hcreated rfl
  lend := by
    rintro w visited r g h hgoal
    cases h with
    | start hstart =>
      cases hgoal
      exact .lent hstart rfl
  created := by
    rintro w visited g reply h
    cases h with
    | created hstart hk => exact ⟨rfl, .lent hstart hk⟩
  work := fun h hw => h.works hw
  invalidated := by
    rintro w visited reply result h
    cases h with
    | invalidated hend => exact .ended hend
  drain := by
    rintro w visited rest data phase delay h
    cases h

/-! ## Walks with a guide -/

section Tours

variable {m m' : Machine World Writer} {visited : List Entry} {result : Except StoreError Unit}

theorem busy (guide : Guide env path recursive visitor) (h : Resting m)
    (hstart : guide.Start m.world) :
    Busy guide.toCourse m.nextTask (m.run env [.request (.walk path recursive visitor)]) :=
  h.request rfl (.start hstart)

/-- **The end of a walk.** Whatever happens in between, what the guide says of the end holds, and
nothing goes on afterwards. -/
theorem of_tours (guide : Guide env path recursive visitor) (h : Resting m)
    (hstart : guide.Start m.world) (ht : m.Tours env path recursive visitor visited result m') :
    guide.End m'.world visited result ∧ Resting m' := by
  obtain ⟨steps, task, outcome, hsteps, rfl, htask, hended, rfl, rfl⟩ := ht
  obtain ⟨hleads, hresting⟩ := ((guide.busy h hstart).run hsteps).resting htask hended
  cases hleads with
  | ended hend => exact ⟨hend, hresting⟩

/-- **Every walk with a guide comes to an end.** -/
theorem exists_tours (guide : Guide env path recursive visitor) (h : Resting m)
    (hstart : guide.Start m.world) :
    ∃ visited result m', m.Tours env path recursive visitor visited result m' := by
  obtain ⟨steps, hsteps, task, outcome, htask, hended⟩ := (guide.busy h hstart).exists_end
  exact ⟨_, _, _, steps, task, outcome, hsteps, rfl, htask, hended, rfl, rfl⟩

end Tours

end Guide

/-- What a walk finds is what it visits when nobody stops it. -/
theorem Machine.walks_iff {m m' : Machine World Writer} {found : Except StoreError (List Entry)} :
    m.Walks env path recursive found m' ↔
      ∃ visited result, m.Tours env path recursive (fun _ _ => .ok ()) visited result m' ∧
        found = result.map fun _ => visited := by
  constructor
  · rintro ⟨steps, task, outcome, hsteps, hm', htask, hended, rfl⟩
    refine ⟨_, _, ⟨steps, task, outcome, hsteps, hm', htask, hended, rfl, rfl⟩, ?_⟩
    cases outcome <;> rfl
  · rintro ⟨visited, result, ⟨steps, task, outcome, hsteps, hm', htask, hended, rfl, rfl⟩, rfl⟩
    refine ⟨steps, task, outcome, hsteps, hm', htask, hended, ?_⟩
    cases outcome <;> rfl

/-! ## Walks through pages -/

/-- What there is to know of a backend that lists a path page by page: which pages remain behind a
token. What is told of entries is the same on the pages that it answers with. -/
structure Pager (env : Env World Writer) (path : String) (recursive : Bool) {τ : Type}
    (tell : Entry → τ) where
  Remain : World → Option String → List Page → Prop
  valid : ∀ c w, env.backend.isValid c w = true
  create : ∀ {w token pages}, Remain w token pages →
    (env.backend.create w).result = .ok () ∧ Remain (env.backend.create w).world token pages
  last : ∀ {w token first pages}, Remain w token (first :: pages) →
    (first.next = none ↔ pages = [])
  full : ∀ {w token first pages}, Remain w token (first :: pages) →
    pages ≠ [] → first.items ≠ []
  list : ∀ {w token first pages} c, Remain w token (first :: pages) →
    let a := env.backend.list c { env.setup.query path recursive with token := token } w
    (∃ page, a.result = .ok page ∧ page.next = first.next ∧
      (page.items.map fun i => tell (i.entry (env.setup.query path recursive).lead)) =
        first.items.map fun i => tell (i.entry (env.setup.query path recursive).lead)) ∧
      Remain a.world (first.next.or token) pages

namespace Pager

variable {τ : Type} {tell : Entry → τ}

/-- The guide of a walk through all pages. -/
def toGuide (pager : Pager env path recursive tell) {pages : List Page} (hne : pages ≠ []) :
    Guide env path recursive fun _ _ => .ok () :=
  let all := (pages.flatMap (·.items)).map fun i =>
    tell (i.entry (env.setup.query path recursive).lead)
  { Start w := pager.Remain w none pages
    On w k := ∃ rest, k.Through tell (env.setup.query path recursive) all rest ∧
      pager.Remain w k.cursor.query.token rest
    left _ k := k.ahead all.length
    End w visited result := result = .ok () ∧ visited.map tell = all ∧
      ∃ token, pager.Remain w token []
    valid := pager.valid
    create := fun hstart => pager.create hstart
    begin := fun hstart => ⟨pages, .start tell _ hne, hstart⟩
    visit := by
      rintro w k k' ⟨rest, hk, hremain⟩ hstep
      obtain ⟨hk', hless, hquery⟩ := hk.visit hstep
      rw [← hquery] at hremain
      exact ⟨⟨rest, hk', hremain⟩, hless⟩
    finish := by
      rintro w k k' result ⟨rest, hk, hremain⟩ hstep
      obtain ⟨rfl, hvisited, -, rfl⟩ := hk.finish hstep
      exact ⟨rfl, hvisited, _, hremain⟩
    receive := by
      rintro c w k q' page ⟨rest, hk, hremain⟩ hstep hresult
      obtain ⟨hbuffered, hrest, rfl⟩ := hk.ask hstep
      obtain ⟨first, later, rfl⟩ := List.exists_cons_of_ne_nil hrest
      obtain ⟨⟨page', hresult', hnext, hitems⟩, hlater⟩ := pager.list c hremain
      obtain rfl := Except.ok.inj (hresult.symm.trans hresult')
      have hlast := pager.last hremain
      rw [← hnext] at hlast hlater
      obtain ⟨hk', hless⟩ := hk.receive hbuffered hlast hitems (pager.full hremain)
      exact ⟨⟨later, hk', hlater⟩, hless⟩
    fail := by
      rintro c w k q' e ⟨rest, hk, hremain⟩ hstep hresult
      obtain ⟨-, hrest, rfl⟩ := hk.ask hstep
      obtain ⟨first, later, rfl⟩ := List.exists_cons_of_ne_nil hrest
      obtain ⟨⟨page, hresult', -, -⟩, -⟩ := pager.list c hremain
      cases hresult.symm.trans hresult'
    destroy := by
      rintro c w entries e ⟨herror, -, -⟩
      cases herror }

variable {m m' : Machine World Writer} {pages : List Page}
  {found : Except StoreError (List Entry)}

/-- **A walk that nobody stops goes through all pages**, whatever happens in between. -/
theorem of_walks (pager : Pager env path recursive tell) (hne : pages ≠ []) (h : Resting m)
    (hstart : pager.Remain m.world none pages) (hw : m.Walks env path recursive found m') :
    (∃ entries, found = .ok entries ∧ entries.map tell = (pages.flatMap (·.items)).map
        fun i => tell (i.entry (env.setup.query path recursive).lead)) ∧
      (∃ token, pager.Remain m'.world token []) ∧ Resting m' := by
  obtain ⟨visited, result, ht, rfl⟩ := Machine.walks_iff.1 hw
  obtain ⟨⟨rfl, hvisited, hremain⟩, hm'⟩ := (pager.toGuide hne).of_tours h hstart ht
  exact ⟨⟨visited, rfl, hvisited⟩, hremain, hm'⟩

theorem exists_walks (pager : Pager env path recursive tell) (hne : pages ≠ []) (h : Resting m)
    (hstart : pager.Remain m.world none pages) :
    ∃ entries m', m.Walks env path recursive (.ok entries) m' := by
  obtain ⟨visited, result, m', ht⟩ := (pager.toGuide hne).exists_tours h hstart
  have hw := Machine.walks_iff.2 ⟨visited, result, ht, rfl⟩
  obtain ⟨⟨entries, hfound, -⟩, -, -⟩ := pager.of_walks hne h hstart hw
  rw [hfound] at hw
  exact ⟨entries, m', hw⟩

end Pager

end Storage

end Depot
