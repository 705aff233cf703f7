import Depot.Proofs.Storage.Uploads
import Depot.Proofs.Storage.Walking
import Depot.Scripted
import Depot.Storage.Walks

/-!
# Interrupted walks

Over any backend, what a walk has visited and what it still has to visit are the entries of the
pages that it was answered (`Walk.Under`), at every moment of a run in which other requests go on,
too. Each of its steps keeps that (`Turn.knows`), so nothing is asked for before all earlier entries
were visited, and the walk ends in one of three ways (`WalkEnds`). With every step it is nearer to
its end or asks for one more page (`Turn.nearer_or_asks`). The main statement is
`interrupted_walk`.
-/

set_option autoImplicit false

namespace Depot

/-! ## Inquiries -/

section Inquiries

variable {q q' : Query} {asked : List Inquiry} {next : Option Query} {visitor : Visitor}
  {visited more : List Entry} {lead : String} {result : Except StoreError Storage.Outcome}

/-- What is to be asked for next is asked for. -/
theorem Chained.concat (h : Chained q asked (some q')) (reply : Except StoreError Page) :
    Chained q (asked ++ [⟨q', reply⟩]) (Inquiry.next ⟨q', reply⟩) := by
  generalize hlast : some q' = next at h
  induction h with
  | nil q =>
    cases hlast
    cases hnext : Inquiry.next ⟨q', reply⟩ with
    | none => exact .last hnext
    | some q'' => exact .more hnext (.nil q'')
  | last _ => cases hlast
  | more hnext _ ih => exact .more hnext (ih hlast)

/-- A visitor that has let a walk go on has done so at every earlier entry. -/
theorem Visitor.Accepts.of_append (h : visitor.Accepts (more ++ visited)) :
    visitor.Accepts visited := by
  induction more with
  | nil => exact h
  | cons e more ih => exact ih h.2

/-- A walk that has ended has visited the first entries of the pages that it was answered. -/
theorem WalkEnds.visited_prefix_entries (h : WalkEnds visitor lead asked visited result) :
    visited.reverse <+: asked.flatMap (·.entries lead) := by
  cases h with
  | through _ _ hvisited _ => rw [hvisited]
  | stopped _ _ _ hprefix => exact hprefix
  | failed _ hvisited _ =>
    rw [hvisited, List.flatMap_append]
    exact List.prefix_append _ _

/-- **When a walk succeeds.** The last page has no token, and the visitor accepts all entries. -/
theorem WalkEnds.eq_ok_iff (h : WalkEnds visitor lead asked visited result) :
    result = .ok .unit ↔
      (∃ before i page, asked = before ++ [i] ∧ i.reply = .ok page ∧ page.next = none) ∧
        visitor.Accepts (asked.flatMap (·.entries lead)).reverse := by
  constructor
  · rintro rfl
    cases h with
    | through hreply hnext hvisited haccepts =>
      refine ⟨⟨_, _, _, rfl, hreply, hnext⟩, ?_⟩
      rw [← hvisited, List.reverse_reverse]
      exact haccepts
  · rintro ⟨⟨before, i, page, hasked, hreply, -⟩, hall⟩
    cases h with
    | through _ _ _ _ => rfl
    | stopped hstop _ _ hprefix =>
      obtain ⟨more, hmore⟩ := hprefix
      rw [← hmore, List.reverse_append, List.reverse_reverse] at hall
      obtain ⟨haccepted, -⟩ := hall.of_append
      rw [hstop] at haccepted
      cases haccepted
    | failed hfailed _ _ =>
      obtain ⟨-, heq⟩ := List.append_inj' hasked rfl
      cases heq
      rw [hfailed] at hreply
      cases hreply

end Inquiries

/-! ## A walk and what it has asked for -/

/-- A walk on its way, when these pages were asked for and answered: it knows all their entries, has
visited those of the earlier pages at least, and was let go on at each entry that it has visited. -/
structure Walk.Under (q : Query) (v : Visitor) (asked : List Inquiry) (k : Walk) :
    Prop extends k.IsFor q v where
  seen : k.seen = asked.flatMap (·.entries q.lead)
  accepts : v.Accepts k.visited
  earlier : asked.dropLast.flatMap (·.entries q.lead) <+: k.visited.reverse
  chained : Chained q asked (if k.cursor.exhausted then none else some k.cursor.query)
  last : k.cursor.exhausted = true →
    ∃ before i page, asked = before ++ [i] ∧ i.reply = .ok page ∧ page.next = none

namespace Walk

variable {q q' : Query} {visitor : Visitor} {asked : List Inquiry} {k k' : Walk}

theorem Under.start (q : Query) (visitor : Visitor) : (ofQuery q visitor).Under q visitor [] where
  toIsFor := .start q visitor
  seen := rfl
  accepts := trivial
  earlier := List.nil_prefix
  chained := .nil q
  last := nofun

/-- A visit that lets the walk go on. -/
theorem Under.visit (h : k.Under q visitor asked) (hstep : k.step = .visited k') :
    k'.Under q visitor asked := by
  obtain ⟨hfor, hseen, -⟩ := h.toIsFor.visit hstep
  obtain ⟨i, rest, -, haccepted, rfl⟩ := step_eq_visited hstep
  refine ⟨hfor, hseen.trans h.seen, ⟨h.visitor ▸ haccepted, h.accepts⟩, ?_, h.chained, h.last⟩
  rw [List.reverse_cons]
  exact h.earlier.trans (List.prefix_append _ _)

/-- Whoever asks for a page has visited all that it knows. -/
theorem Under.ask (h : k.Under q visitor asked) (hstep : k.step = .ask q') :
    k.visited.reverse = asked.flatMap (·.entries q.lead) ∧ Chained q asked (some q') := by
  obtain ⟨hbuffered, hexhausted, rfl⟩ := step_eq_ask_iff.1 hstep
  have hseen := h.seen
  have hchained := h.chained
  rw [Walk.seen, hbuffered, List.map_nil, List.append_nil] at hseen
  rw [hexhausted] at hchained
  exact ⟨hseen, hchained⟩

/-- A page is answered. -/
theorem Under.receive (h : k.Under q visitor asked) (hstep : k.step = .ask q') (page : Page) :
    (k.receive page).Under q visitor (asked ++ [⟨q', .ok page⟩]) := by
  obtain ⟨hvisited, hchained⟩ := h.ask hstep
  obtain ⟨-, hexhausted, rfl⟩ := step_eq_ask_iff.1 hstep
  obtain ⟨hfor, hseen⟩ := h.toIsFor.receive page
  have hchained := hchained.concat (.ok page)
  refine ⟨hfor, ?_, h.accepts, ?_, ?_, ?_⟩
  · rw [hseen, h.seen, List.flatMap_append, List.flatMap_singleton]
    rfl
  · rw [List.dropLast_concat, ← hvisited]
    exact List.prefix_rfl
  · cases hnext : page.next with
    | none => simpa [Walk.receive, Cursor.receive, Inquiry.next, hnext] using hchained
    | some token =>
      simpa [Walk.receive, Cursor.receive, Inquiry.next, hnext, hexhausted] using hchained
  · intro hdone
    refine ⟨asked, _, page, rfl, rfl, ?_⟩
    simpa [Walk.receive, Cursor.receive, hexhausted] using hdone

/-- **The end of a walk** that was answered all pages it has asked for. -/
theorem Under.finish (h : k.Under q visitor asked) {result : Except StoreError Unit}
    (hstep : k.step = .finished k' result) :
    WalkEnds visitor q.lead asked k'.visited (result.map fun _ => .unit) := by
  rcases step_eq_finished hstep with
    ⟨rfl, rfl, hbuffered, hexhausted⟩ | ⟨i, rest, error, hbuffered, rfl, hstop, rfl⟩
  · obtain ⟨before, i, page, rfl, hreply, hnext⟩ := h.last hexhausted
    have hseen := h.seen
    rw [Walk.seen, hbuffered, List.map_nil, List.append_nil] at hseen
    exact .through hreply hnext hseen h.accepts
  · have hseen := h.seen
    have hearlier := h.earlier
    rw [Walk.seen, hbuffered, List.map_cons] at hseen
    rcases List.eq_nil_or_concat' asked with rfl | ⟨before, last, rfl⟩
    · -- without a page there are no entries
      simp at hseen
    · rw [List.dropLast_concat] at hearlier
      refine .stopped (h.visitor ▸ hstop) h.accepts hearlier ?_
      rw [← hseen, List.reverse_cons]
      exact ⟨rest.map (·.entry k.lead), by simp⟩

/-- The end of a walk that was not answered the last page it has asked for. -/
theorem Under.fail (h : k.Under q visitor asked) (hstep : k.step = .ask q') (error : StoreError) :
    WalkEnds visitor q.lead (asked ++ [⟨q', .error error⟩]) k.visited (.error error) :=
  .failed rfl (h.ask hstep).1 h.accepts

end Walk

namespace Storage

variable {World Writer : Type} {b : Backend World Writer} {setup : Setup} {path : String}
  {recursive : Bool} {visitor : Visitor} {asked : List Inquiry} {visited : List Entry}
  {unserved unserved' : Prop}

/-! ## A task that walks -/

/-- The surroundings of a storage over a backend whose pages are recorded. -/
abbrev overheard (b : Backend World Writer) (setup : Setup) : Env (Listened World) Writer :=
  ⟨setup, listening b⟩

/-- What is known of a task that walks in a phase, when it has asked for some pages and has visited
some entries. One that ends without a client is said to be unserved. -/
def Phase.Knows (q : Query) (visitor : Visitor) (asked : List Inquiry) (visited : List Entry)
    (unserved : Prop) : Phase Writer → Prop
  | walking k => k.visited = visited ∧ k.Under q visitor asked
  | listed k reply => k.visited = visited ∧ ∃ before q', asked = before ++ [⟨q', reply⟩] ∧
      k.step = .ask q' ∧ k.Under q visitor before
  | invalidated _ result => WalkEnds visitor q.lead asked visited result
  | ended result => unserved ∧ asked = [] ∧ visited = [] ∨
    WalkEnds visitor q.lead asked visited result
  | _ => asked = [] ∧ visited = []

theorem Phase.Knows.imp {q : Query} {phase : Phase Writer}
    (h : phase.Knows q visitor asked visited unserved) (hless : unserved → unserved') :
    phase.Knows q visitor asked visited unserved' := by
  cases phase with
  | ended result => exact h.imp_left (And.imp_left hless)
  | _ => exact h

/-- What was visited are the first entries of the pages that were answered, in order. -/
theorem Phase.Knows.visited_prefix_entries {q : Query} {phase : Phase Writer}
    (h : phase.Knows q visitor asked visited unserved) :
    visited.reverse <+: asked.flatMap (·.entries q.lead) := by
  have hnothing : asked = [] ∧ visited = [] →
      visited.reverse <+: asked.flatMap (·.entries q.lead) := by
    rintro ⟨rfl, rfl⟩
    exact List.prefix_rfl
  cases phase with
  | walking k =>
    obtain ⟨rfl, hunder⟩ := h
    rw [← hunder.seen]
    exact List.prefix_append _ _
  | listed k reply =>
    obtain ⟨rfl, before, q', rfl, hstep, hunder⟩ := h
    rw [(hunder.ask hstep).1, List.flatMap_append]
    exact List.prefix_append _ _
  | invalidated reply result => exact WalkEnds.visited_prefix_entries h
  | ended result =>
    rcases h with ⟨-, hnone⟩ | hends
    · exact hnothing hnone
    · exact hends.visited_prefix_entries
  | _ => exact hnothing h

/-- Before a task has a client, it has asked for nothing. -/
theorem Phase.Knows.of_seeks {q : Query} {phase : Phase Writer}
    (h : phase.Knows q visitor asked visited unserved) (hs : phase.seeks = true) :
    asked = [] ∧ visited = [] := by
  cases phase <;> first | exact h | cases hs

/-- A task that walks has that goal only. -/
theorem Request.Wants.eq_walk {g : Goal} (h : (Request.walk path recursive visitor).Wants setup g) :
    g = .walk (.ofQuery (setup.query path recursive) visitor) := by
  cases h
  rfl

/-- What is known of a task that walks after the work of a step. -/
def Work.Knows (q : Query) (visitor : Visitor) (asked : List Inquiry) (unserved : Prop) :
    Work (Listened World) Writer → Prop
  | keep phase _ _ visited => phase.Knows q visitor asked visited unserved
  | giveBack phase _ visited => phase.Knows q visitor asked visited unserved
  | destroy e _ visited => WalkEnds visitor q.lead asked visited (.error e)

/-- From one state of the backend to another one, a task that has visited some entries asks for some
more pages, and `P` holds of all that it has asked for then. If it asks for any, it has visited all
entries of the earlier pages, and was let go on. -/
def Inquires (q : Query) (visitor : Visitor) (asked : List Inquiry) (visited : List Entry)
    (w w' : Listened World) (P : List Inquiry → Prop) : Prop :=
  ∃ new, w'.inquiries = w.inquiries ++ new ∧ P (asked ++ new) ∧
    (new ≠ [] → visited.reverse = asked.flatMap (·.entries q.lead) ∧ visitor.Accepts visited ∧
      ∃ next, Chained q (asked ++ new) next)

/-- Nothing is asked for. -/
theorem Inquires.quiet {q : Query} {w w' : Listened World} {P : List Inquiry → Prop}
    (hworld : w'.inquiries = w.inquiries) (h : P asked) :
    Inquires q visitor asked visited w w' P :=
  ⟨[], by rw [hworld, List.append_nil], by rwa [List.append_nil], fun hne => absurd rfl hne⟩

/-- **The work of a step of a walk.** -/
theorem Works.knows {c : Client} {w : Listened World} {phase : Phase Writer}
    {k : Work (Listened World) Writer} (h : Works (overheard b setup) c w visited phase k)
    (hserves : phase.Serves setup (.walk path recursive visitor))
    (hknows : phase.Knows (setup.query path recursive) visitor asked visited unserved) :
    Inquires (setup.query path recursive) visitor asked visited w k.world fun asked =>
      k.Knows (setup.query path recursive) visitor asked unserved := by
  cases h with
  | walk =>
    obtain ⟨rfl, rfl⟩ := hknows
    cases Request.Wants.eq_walk hserves
    exact .quiet rfl ⟨rfl, .start _ _⟩
  | ask hstep ha =>
    obtain ⟨rfl, hunder⟩ := hknows
    obtain ⟨hvisited, hchained⟩ := hunder.ask hstep
    subst ha
    refine ⟨[⟨_, _⟩], rfl, ⟨rfl, asked, _, rfl, hstep, hunder⟩, ?_⟩
    intro _
    exact ⟨hvisited, hunder.accepts, _, hchained.concat _⟩
  | visit hstep => exact .quiet rfl ⟨rfl, hknows.2.visit hstep⟩
  | walked hstep => exact .quiet rfl (Or.inr (hknows.2.finish hstep))
  | stopped hstep => exact .quiet rfl (hknows.2.finish hstep)
  | listed =>
    obtain ⟨rfl, before, q', rfl, hstep, hunder⟩ := hknows
    exact .quiet rfl ⟨rfl, hunder.receive hstep _⟩
  | unlisted =>
    obtain ⟨rfl, before, q', rfl, hstep, hunder⟩ := hknows
    exact .quiet rfl (hunder.fail hstep _)
  | openReader _ | openWriter _ | look _ | delete _ | measure _ | copy _ | deleted | undeleted
  | unmeasured | copied | uncopied =>
    -- a walk has no other goal
    cases hserves
  | _ =>
    obtain ⟨_, hwants⟩ := hserves
    cases hwants

/-- **A step of a walk** keeps what is known of it. Whether it is served is seen when it stops
looking for a client. -/
theorem Turn.knows {m : Machine (Listened World) Writer} {task : Task Writer}
    {n : Next (Listened World) Writer} (h : Turn (overheard b setup) m task n)
    (hserves : task.phase.Serves setup (.walk path recursive visitor))
    (hknows : task.phase.Knows (setup.query path recursive) visitor asked task.visited unserved)
    (hrefused : task.phase.seeks = true → ∀ result, n.task.phase = .ended result → unserved) :
    Inquires (setup.query path recursive) visitor asked task.visited m.world n.world fun asked =>
      n.task.phase.Knows (setup.query path recursive) visitor asked n.task.visited unserved := by
  rcases h.of_endsSettled hserves rfl with
    ⟨e, -, hgoal, -⟩ | ⟨g, t, p, progress, hasks, hn⟩ | ⟨t, c, k, -, hw, hn⟩ |
    ⟨t, reply, result, hphase, rfl⟩
  · -- a walk needs no second root
    cases hgoal
  · have hseeks := hasks.seeks
    have hnothing := hknows.of_seeks hseeks
    cases hn with
    | refuse => exact .quiet rfl (Or.inl ⟨hrefused hseeks _ rfl, hnothing⟩)
    | reject ha _ | create ha _ =>
      subst ha
      exact .quiet rfl hnothing
    | _ => exact .quiet rfl hnothing
  · obtain ⟨new, hinquiries, hknows', hasks⟩ := hw.knows hserves hknows
    cases hn with
    | keep _ | giveBack _ _ | giveLate _ _ => exact ⟨new, hinquiries, hknows', hasks⟩
    | destroy _ ha _ =>
      subst ha
      exact ⟨new, hinquiries, hknows', hasks⟩
  · rw [hphase] at hknows
    exact .quiet rfl (Or.inr hknows)

/-! ## What a walk has asked for -/

section Run

open Machine (Operates)

variable {m : Machine (Listened World) Writer} {os os' : List Occurrence} {x : Occurrence}
  {id : TaskId} {task : Task Writer}

theorem askedBy_append (env : Shared (Listened World) Writer) (id : TaskId)
    (m : Machine (Listened World) Writer) (os os' : List Occurrence) :
    askedBy env id m (os ++ os') =
      askedBy env id m os ++ askedBy env id (m.after env os) os' := by
  induction os generalizing m with
  | nil => rfl
  | cons x os ih =>
    simp only [List.cons_append, askedBy, ih, List.append_assoc]
    rfl

theorem askedBy_concat (env : Shared (Listened World) Writer) (id : TaskId)
    (m : Machine (Listened World) Writer) (os : List Occurrence) (x : Occurrence) :
    askedBy env id m (os ++ [x]) = askedBy env id m os ++
      if x.isOf id then (m.after env (os ++ [x])).world.inquiries.drop
        (m.after env os).world.inquiries.length else [] := by
  rw [askedBy_append, Machine.after_concat]
  simp only [askedBy, List.append_nil]

/-- What is asked for in a step of a task is added to what it has asked for. -/
theorem askedBy_step {env : Shared (Listened World) Writer} {new : List Inquiry}
    (h : (m.after env (os ++ [.event (.step id)])).world.inquiries =
      (m.after env os).world.inquiries ++ new) :
    askedBy env id m (os ++ [.event (.step id)]) = askedBy env id m os ++ new := by
  have hof : Occurrence.isOf id (.event (.step id)) = true := decide_eq_true rfl
  rw [askedBy_concat, if_pos hof, h, List.drop_left]

/-- A task asks for pages only with its steps. -/
theorem askedBy_concat_cases (ho : Orderly m) (hops : Operates (os ++ [x])) (id : TaskId) :
    let env := Shared.alone (overheard b setup)
    (∃ task n, x = .event (.step id) ∧ (m.after env os).task? id = some task ∧
      Turn env.toEnv (m.after env os) task n ∧
      (m.after env (os ++ [x])).bare = ((m.after env os).follow id n).bare) ∨
    askedBy env id m (os ++ [x]) = askedBy env id m os := by
  intro env
  have ho' : Orderly (m.after env os) := ho.after (hops.of_prefix (List.prefix_append os [x]))
  have hquiet : (m.after env (os ++ [x])).world.inquiries = (m.after env os).world.inquiries →
      askedBy env id m (os ++ [x]) = askedBy env id m os := by
    intro hsame
    rw [askedBy_concat, hsame, List.drop_length, ite_self, List.append_nil]
  rw [Machine.after_concat] at hquiet ⊢
  rcases ho'.occur_cases env x id with hturn | hof | hsame | ⟨writer, hdrop⟩
  · exact Or.inl hturn
  · right
    rw [askedBy_concat, hof, if_neg Bool.false_ne_true, List.append_nil]
  · exact Or.inr (hquiet (congrArg Listened.inquiries hsame))
  · exact Or.inr (hquiet (by rw [hdrop]; rfl))

/-- A task that was not asked for yet has asked for no page. -/
theorem askedBy_eq_nil (ho : Orderly m) (hops : Operates os)
    (hid : (m.after (.alone (overheard b setup)) os).nextTask ≤ id) :
    askedBy (.alone (overheard b setup)) id m os = [] := by
  induction os using List.reverseRecOn with
  | nil => rfl
  | append_singleton os x ih =>
    have hops' := hops.of_prefix (List.prefix_append os [x])
    have ho' : Orderly (m.after (.alone (overheard b setup)) os) := ho.after hops'
    have hle := ho'.nextTask_le_occur (.alone (overheard b setup)) x
    rw [Machine.after_concat] at hid
    rcases askedBy_concat_cases ho hops id with ⟨task, n, -, htask, -⟩ | hsame
    · have hlt := ho'.lt_nextTask htask
      exact absurd (Nat.lt_of_lt_of_le hlt hle) (Nat.not_lt.2 hid)
    · rw [hsame]
      exact ih hops' (Nat.le_trans hle hid)

/-- **A step of a walk in a run.** What is known of the walk before is known of it behind, with the
pages that it has asked for in this step. -/
theorem Orderly.inquires (ho : Orderly m) (hops : Operates (os ++ [.event (.step id)]))
    (hasked : m.Asked (.alone (overheard b setup)) os id (.walk path recursive visitor))
    (htask : (m.after (.alone (overheard b setup)) os).task? id = some task)
    {n : Next (Listened World) Writer}
    (hn : Turn (overheard b setup) (m.after (.alone (overheard b setup)) os) task n)
    (hm' : (m.after (.alone (overheard b setup)) (os ++ [.event (.step id)])).bare =
      ((m.after (.alone (overheard b setup)) os).follow id n).bare)
    (hknows : task.phase.Knows (setup.query path recursive) visitor
      (askedBy (.alone (overheard b setup)) id m os) task.visited
      (Unserved (.alone (overheard b setup)) m os id)) :
    let env := Shared.alone (overheard b setup)
    let later := os ++ [.event (.step id)]
    ∃ new, askedBy env id m later = askedBy env id m os ++ new ∧
      n.task.phase.Knows (setup.query path recursive) visitor (askedBy env id m later)
        n.task.visited (Unserved env m later id) ∧
      (new ≠ [] →
        task.visited.reverse =
          (askedBy env id m os).flatMap (·.entries (setup.query path recursive).lead) ∧
        visitor.Accepts task.visited ∧
        ∃ next, Chained (setup.query path recursive) (askedBy env id m later) next) := by
  intro env later
  have hserves := ho.serves_of_asked (hops.of_prefix (List.prefix_append os _)) hasked htask
  have hnext := Machine.task?_of_follow hm' htask
  obtain ⟨new, hinquiries, hknows', hasks⟩ :=
    hn.knows hserves (hknows.imp fun h => h.concat (.event (.step id)))
      fun hseeks result hended => ho.unserved hops htask hseeks hnext hended
  rw [← Machine.world_of_follow hm'] at hinquiries
  have hlater := askedBy_step hinquiries
  rw [← hlater] at hknows' hasks
  exact ⟨new, hlater, hknows', hasks⟩

/-- **At every moment of a walk** all this is known of it. -/
theorem Orderly.knows (ho : Orderly m) (hops : Operates os)
    (hasked : m.Asked (.alone (overheard b setup)) os id (.walk path recursive visitor)) :
    let env := Shared.alone (overheard b setup)
    (∃ next, Chained (setup.query path recursive) (askedBy env id m os) next) ∧
      ∀ task, (m.after env os).task? id = some task →
        task.phase.Knows (setup.query path recursive) visitor (askedBy env id m os) task.visited
          (Unserved env m os id) := by
  intro env
  induction os using List.reverseRecOn with
  | nil =>
    obtain ⟨before, hbefore, -⟩ := hasked
    exact absurd (List.prefix_nil.1 hbefore) (by simp)
  | append_singleton os x ih =>
    have hops' := hops.of_prefix (List.prefix_append os [x])
    have ho' : Orderly (m.after env os) := ho.after hops'
    rcases Machine.asked_concat.1 hasked with hold | ⟨rfl, rfl⟩
    · obtain ⟨⟨next, hchained⟩, hknows⟩ := ih hops' hold
      by_cases hturn : ∃ task n, x = .event (.step id) ∧
          (m.after env os).task? id = some task ∧ Turn env.toEnv (m.after env os) task n ∧
          (m.after env (os ++ [x])).bare = ((m.after env os).follow id n).bare
      · obtain ⟨task, n, rfl, htask, hn, hm'⟩ := hturn
        obtain ⟨new, hlater, hknows', hasks⟩ :=
          ho.inquires hops hold htask hn hm' (hknows task htask)
        constructor
        · by_cases hnew : new = []
          · rw [hlater, hnew, List.append_nil]
            exact ⟨next, hchained⟩
          · exact (hasks hnew).2.2
        · intro task' htask'
          rw [Machine.task?_of_follow hm' htask] at htask'
          cases htask'
          exact hknows'
      · -- the task is as it was
        rw [(askedBy_concat_cases ho hops id).resolve_left hturn, Machine.after_concat]
        refine ⟨⟨next, hchained⟩, ?_⟩
        intro task htask
        rcases ho'.of_task?_occur htask with htask | ⟨task₀, n, hx, htask₀, hn, -, hm'⟩ | ⟨hnew, -⟩
        · exact (hknows task htask).imp fun h => h.concat x
        · rw [← Machine.after_concat] at hm'
          exact absurd ⟨task₀, n, hx, htask₀, hn, hm'⟩ hturn
        · exact absurd (ho.lt_of_asked hops' hold) (hnew ▸ Nat.lt_irrefl _)
    · -- it is asked for now
      have hnone : askedBy env (m.after env os).nextTask m
          (os ++ [.event (.request (.walk path recursive visitor))]) = [] := by
        have hof : Occurrence.isOf (m.after env os).nextTask
          (.event (.request (.walk path recursive visitor))) = false := rfl
        rw [askedBy_concat, askedBy_eq_nil ho hops' (Nat.le_refl _), hof,
          if_neg Bool.false_ne_true, List.append_nil]
      rw [hnone, Machine.after_concat]
      refine ⟨⟨_, .nil _⟩, ?_⟩
      intro task htask
      have hnew : ((m.after env os).occur env (.event (.request _))).task?
        (m.after env os).nextTask = _ := ho'.task?_request (.walk path recursive visitor)
      rw [hnew] at htask
      cases htask
      exact ⟨rfl, rfl⟩

end Run

/-! ## To the end of a walk -/

/-- How much a task that walks has to do in a phase before it asks for a page, or is done. -/
def Phase.toVisit : Phase Writer → Nat
  | lent _ => 1
  | walking k => k.cursor.buffered.length
  | listed k (.ok page) => k.cursor.buffered.length + page.items.length + 1
  | _ => 0

/-- **With every step**, a walk that has a client comes to its end, asks for one more page, or is
nearer to doing so. -/
theorem Turn.nearer_or_asks {m : Machine (Listened World) Writer} {task : Task Writer}
    {n : Next (Listened World) Writer} (h : Turn (overheard b setup) m task n)
    (hserves : task.phase.Serves setup (.walk path recursive visitor))
    (hseeks : task.phase.seeks = false) (hway : task.phase.isUnderWay = false) :
    n.task.phase.isUnderWay = true ∨
      (∃ i, n.world.inquiries = m.world.inquiries ++ [i]) ∨
      n.world.inquiries = m.world.inquiries ∧ n.task.phase.toVisit < task.phase.toVisit := by
  have hstage : task.phase.stage = .holding := by
    generalize task.phase = phase at hserves hseeks hway
    cases phase with
    | discard | discarded _ => exact hserves.elim
    | start _ | line _ | rejected _ _ | created _ _ | disconnected _ | closing _ _ => cases hseeks
    | draining _ _ | invalidated _ _ | ended _ => cases hway
    | _ => rfl
  obtain ⟨t, c, k, -, -, -, hw, hn⟩ := h.of_holding hstage
  generalize task.phase = phase at hw hserves
  cases hw with
  | walk =>
    cases Request.Wants.eq_walk hserves
    cases hn
    exact Or.inr (Or.inr ⟨rfl, Nat.zero_lt_one⟩)
  | ask hstep ha =>
    subst ha
    cases hn
    exact Or.inr (Or.inl ⟨_, rfl⟩)
  | visit hstep =>
    obtain ⟨i, rest, hbuffered, -, rfl⟩ := Walk.step_eq_visited hstep
    cases hn
    refine Or.inr (Or.inr ⟨rfl, ?_⟩)
    simp only [Phase.toVisit, hbuffered]
    exact Nat.lt_succ_self _
  | listed =>
    cases hn
    refine Or.inr (Or.inr ⟨rfl, ?_⟩)
    simp only [Phase.toVisit, Walk.receive, Cursor.receive, List.length_append]
    exact Nat.lt_succ_self _
  | walked _ => cases hn <;> exact Or.inl rfl
  | stopped _ | unlisted =>
    cases hn
    exact Or.inl rfl
  | openReader _ | openWriter _ | look _ | delete _ | measure _ | copy _ | deleted | undeleted
  | unmeasured | copied | uncopied => cases hserves
  | _ =>
    obtain ⟨_, hwants⟩ := hserves
    cases hwants

section End

variable {m : Machine (Listened World) Writer} {id : TaskId} {task : Task Writer}

/-- What a task asks for in a step comes before what it asks for later. -/
theorem askedBy_own {env : Env (Listened World) Writer} {wait : Nat} {new : List Inquiry}
    (h : (m.run env [.pass wait, .step id]).world.inquiries = m.world.inquiries ++ new)
    (own : List Event) :
    askedBy (.alone env) id m ((.pass wait :: .step id :: own).map .event) =
      new ++ askedBy (.alone env) id (m.run env [.pass wait, .step id]) (own.map .event) := by
  have hof : Occurrence.isOf id (.event (.step id)) = true := decide_eq_true rfl
  have hnew : (m.run env [.pass wait, .step id]).world.inquiries.drop
      m.world.inquiries.length = new := by
    rw [h, List.drop_left]
  rw [List.map_cons, List.map_cons, askedBy, askedBy, if_pos hof]
  exact congrArg (· ++ _) hnew

/-- **A walk comes to its end** by its own steps, if there is an end to the pages. -/
theorem Orderly.walk_endsAlone (ho : Orderly m) (htask : m.task? id = some task)
    (hserves : task.phase.Serves setup (.walk path recursive visitor))
    (hseeks : task.phase.seeks = false) {bound : Nat}
    (hbound : ∀ own : List Event, (∀ e ∈ own, e.isOwn id = true) →
      (askedBy (.alone (overheard b setup)) id m (own.map .event)).length ≤ bound) :
    m.EndsAlone (overheard b setup) id := by
  have hwf : WellFounded (Prod.Lex (fun a b : Nat => a < b) fun a b : Nat => a < b) :=
    (Prod.lex Nat.lt_wfRel Nat.lt_wfRel).wf
  -- on how many pages there are at most, and on what is to be done before the next one
  generalize hrank : (bound, task.phase.toVisit) = rank
  induction rank using hwf.induction generalizing m task bound with
  | h rank ih =>
    cases hway : task.phase.isUnderWay with
    | true => exact ho.endsAlone _ htask hway
    | false =>
      have hended : ∀ result, task.phase ≠ .ended result := by
        intro result hphase
        rw [hphase] at hway
        cases hway
      have hline : ∀ g, task.phase ≠ .line g := by
        intro g hphase
        rw [hphase] at hseeks
        cases hseeks
      obtain ⟨wait, n, hturn, hm'⟩ := ho.exists_turn (overheard b setup) htask hended hline
      have htask' := Machine.task?_of_follow hm' htask
      have hworld := Machine.world_of_follow hm'
      have ho' : Orderly (m.run (overheard b setup) [.pass wait, .step id]) := ho.run (by simp)
      have hserves' := hturn.serves hserves
      have hseeks' := hturn.seeks_eq_false hseeks
      have hmore : ∀ new, n.world.inquiries = m.world.inquiries ++ new →
          ∀ own : List Event, (∀ e ∈ own, e.isOwn id = true) →
            new.length + (askedBy (.alone (overheard b setup)) id
              (m.run (overheard b setup) [.pass wait, .step id]) (own.map .event)).length ≤
              bound := by
        intro new hnew own hown
        rw [← hworld] at hnew
        have hle := hbound (.pass wait :: .step id :: own) (by simpa [Event.isOwn] using hown)
        rwa [askedBy_own hnew, List.length_append] at hle
      have hback : (m.run (overheard b setup) [.pass wait, .step id]).EndsAlone
          (overheard b setup) id → m.EndsAlone (overheard b setup) id := by
        rintro ⟨more, hmore, hend⟩
        exact ⟨.pass wait :: .step id :: more, by simpa [Event.isOwn] using hmore, hend⟩
      apply hback
      rcases hturn.nearer_or_asks hserves hseeks hway with hnear | ⟨i, hasks⟩ | ⟨hquiet, hless⟩
      · exact ho'.endsAlone _ htask' hnear
      · have hone := hmore [i] hasks [] (List.forall_mem_nil _)
        rw [List.length_singleton] at hone
        refine ih (bound - 1, n.task.phase.toVisit) ?_ ho' htask' hserves' hseeks' ?_ rfl
        · rw [← hrank]
          exact Prod.Lex.left _ _ (by omega)
        · intro own hown
          have hle := hmore [i] hasks own hown
          rw [List.length_singleton] at hle
          omega
      · refine ih (bound, n.task.phase.toVisit) ?_ ho' htask' hserves' hseeks' ?_ rfl
        · rw [← hrank]
          exact Prod.Lex.right _ hless
        · intro own hown
          have hnone : n.world.inquiries = m.world.inquiries ++ [] := by
            rw [List.append_nil]
            exact hquiet
          have hle := hmore [] hnone own hown
          rwa [List.length_nil, Nat.zero_add] at hle

end End

/-! ## Interrupted walks -/

section Interrupted

open Machine (Operates)

variable {kind : String} {config : Config} {w : World} {m : Machine (Listened World) Writer}
  {os : List Occurrence} {id : TaskId} {task : Task Writer}

/-- Whoever asks for one more page has visited all entries of the earlier ones, and was let go on at
each of them. -/
theorem Orderly.visited_of_asks (ho : Orderly m) (hops : Operates os)
    (hasked : m.Asked (.alone (overheard b setup)) os id (.walk path recursive visitor))
    {before : List Occurrence} (hbefore : before ++ [.event (.step id)] <+: os) :
    let env := Shared.alone (overheard b setup)
    askedBy env id m (before ++ [.event (.step id)]) ≠ askedBy env id m before →
      ∃ task, (m.after env before).task? id = some task ∧
        task.visited.reverse =
          (askedBy env id m before).flatMap (·.entries (setup.query path recursive).lead) ∧
        visitor.Accepts task.visited := by
  intro env hasks
  have hops' := hops.of_prefix hbefore
  rcases askedBy_concat_cases ho hops' id with ⟨task, n, -, htask, hn, hm'⟩ | hsame
  · have hpart := (List.prefix_append before [.event (.step id)]).trans hbefore
    have hasked' := ho.asked_of_task? hops hasked hpart htask
    obtain ⟨-, hknows⟩ := ho.knows (hops.of_prefix hpart) hasked'
    obtain ⟨new, hlater, -, hall⟩ := ho.inquires hops' hasked' htask hn hm' (hknows task htask)
    have hnew : new ≠ [] := by
      rintro rfl
      exact hasks (hlater.trans (List.append_nil _))
    obtain ⟨hvisited, haccepts, -⟩ := hall hnew
    exact ⟨task, htask, hvisited, haccepts⟩
  · exact absurd hsame hasks

/-- **How a walk has ended** that had got a client. -/
theorem Orderly.walkEnds (ho : Orderly m) (hops : Operates os)
    (hasked : m.Asked (.alone (overheard b setup)) os id (.walk path recursive visitor))
    (hobtained : m.Obtained (.alone (overheard b setup)) os id)
    (htask : (m.after (.alone (overheard b setup)) os).task? id = some task)
    {result : Except StoreError Outcome} (hended : task.phase = .ended result) :
    WalkEnds visitor (setup.query path recursive).lead
      (askedBy (.alone (overheard b setup)) id m os) task.visited result := by
  obtain ⟨-, hknows⟩ := ho.knows hops hasked
  have hknows := hknows task htask
  rw [hended] at hknows
  rcases hknows with ⟨hunserved, -⟩ | hends
  · exact absurd hobtained (ho.not_obtained hops hunserved)
  · exact hends

/-- A walk that has got a client comes to its end by its own steps, unless there is no end to the
pages that it asks for. -/
theorem Orderly.walk_endsAlone_or (ho : Orderly m) (hops : Operates os)
    (hasked : m.Asked (.alone (overheard b setup)) os id (.walk path recursive visitor))
    (hobtained : m.Obtained (.alone (overheard b setup)) os id)
    (htask : (m.after (.alone (overheard b setup)) os).task? id = some task) :
    let env := Shared.alone (overheard b setup)
    (m.after env os).EndsAlone env.toEnv id ∨
      ∀ bound, ∃ own : List Event, (∀ e ∈ own, e.isOwn id = true) ∧
        bound < (askedBy env id m (os ++ own.map .event)).length := by
  intro env
  by_cases hbound : ∃ bound, ∀ own : List Event, (∀ e ∈ own, e.isOwn id = true) →
      (askedBy env id m (os ++ own.map .event)).length ≤ bound
  · left
    obtain ⟨bound, hbound⟩ := hbound
    have hserves := ho.serves_of_asked hops hasked htask
    have hserves : task.phase.Serves setup (.walk path recursive visitor) := hserves
    have hseeks := ho.seeks_of_obtained hops hobtained htask
    have hfew : ∀ own : List Event, (∀ e ∈ own, e.isOwn id = true) →
        (askedBy env id (m.after env os) (own.map .event)).length ≤ bound := by
      intro own hown
      have hle := hbound own hown
      rw [askedBy_append, List.length_append] at hle
      exact Nat.le_trans (Nat.le_add_left _ _) hle
    exact (ho.after hops).walk_endsAlone htask hserves hseeks hfew
  · right
    intro bound
    by_contra hnone
    refine hbound ⟨bound, fun own hown => Nat.le_of_not_lt fun hlt => hnone ⟨own, hown, hlt⟩⟩

/-- **Interrupted walks.** Over any backend, and whatever else goes on, a walk asks for one page
after the other, each with the token of the page before it, and visits their entries in order. It
asks for a page only when it has visited all entries of the earlier pages and was let go on at each
of them. Once it has got a client, it comes to its end, unless there is no end to the pages. At its
end

- it has visited all entries of all pages, or
- it has come to an entry where the visitor fails, with that error, or
- it has come to a page that is not answered, with that error,

and has asked for nothing more. It has succeeded exactly when the last page has no token and the
visitor accepts all entries. -/
theorem interrupted_walk (hconnect : connect kind (listening b) config ⟨w, []⟩ = .ok m)
    (hops : Operates os)
    (hasked : m.Asked (.alone (overheard b (.ofConfig kind config))) os id
      (.walk path recursive visitor)) :
    let env := Shared.alone (overheard b (.ofConfig kind config))
    let q := (Setup.ofConfig kind config).query path recursive
    let asked := askedBy env id m
    (∃ next, Chained q (asked os) next) ∧
      (∀ before, before ++ [.event (.step id)] <+: os →
        asked (before ++ [.event (.step id)]) ≠ asked before →
        ∃ task, (m.after env before).task? id = some task ∧
          task.visited.reverse = (asked before).flatMap (·.entries q.lead) ∧
          visitor.Accepts task.visited) ∧
      ∀ task, (m.after env os).task? id = some task →
        task.visited.reverse <+: (asked os).flatMap (·.entries q.lead) ∧
        (m.Obtained env os id →
          ((m.after env os).EndsAlone env.toEnv id ∨
            ∀ bound, ∃ own : List Event, (∀ e ∈ own, e.isOwn id = true) ∧
              bound < (asked (os ++ own.map .event)).length) ∧
          ∀ result, task.phase = .ended result →
            WalkEnds visitor q.lead (asked os) task.visited result ∧
            (result = .ok .unit ↔
              (∃ before i page, asked os = before ++ [i] ∧ i.reply = .ok page ∧
                page.next = none) ∧
              visitor.Accepts ((asked os).flatMap (·.entries q.lead)).reverse)) := by
  intro env q asked
  have ho : Orderly m := .of_connect hconnect
  obtain ⟨hchained, hknows⟩ := ho.knows hops hasked
  refine ⟨hchained, ?_, ?_⟩
  · intro before hbefore hasks
    exact ho.visited_of_asks hops hasked hbefore hasks
  · intro task htask
    refine ⟨(hknows task htask).visited_prefix_entries, ?_⟩
    intro hobtained
    constructor
    · exact ho.walk_endsAlone_or hops hasked hobtained htask
    · intro result hended
      have hends := ho.walkEnds hops hasked hobtained htask hended
      exact ⟨hends, hends.eq_ok_iff⟩

/-- A walk through two pages, the second of which is empty, and whose third page is not answered. -/
theorem interrupted_walk_of_failing_page :
    ∃ (config : Config) (w : Scripted) (m : Machine (Listened Scripted) Scripted.Writer)
      (os : List Occurrence) (task : Task Scripted.Writer),
      let env := Shared.alone (overheard Scripted.backend (.ofConfig "trial" config))
      let accept : Visitor := fun _ _ => .ok ()
      connect "trial" (listening Scripted.backend) config ⟨w, []⟩ = .ok m ∧ Operates os ∧
        m.Asked env os 0 (.walk "" true accept) ∧ m.Obtained env os 0 ∧
        (m.after env os).task? 0 = some task ∧ task.phase = .ended (.error (.general "gone")) ∧
        WalkEnds accept "" (askedBy env 0 m os) task.visited (.error (.general "gone")) ∧
        (askedBy env 0 m os).map (·.query.token) = [none, some "1", some "2"] ∧
        task.visited.reverse.map (·.name) = ["a", "b"] := by
  obtain ⟨config, hconfig⟩ : ∃ config : Config,
      config = { Config.standard with bucket := "b" } := ⟨_, rfl⟩
  have hvalid : config.validate = .ok () := hconfig ▸ Config.validate_standard (by decide)
  obtain ⟨w, hw⟩ : ∃ w : Scripted, w = .new [] []
    [{ (default : Scripted.Reply) with
        page := ⟨[.object ⟨"a", 1, none⟩, .object ⟨"b", 2, none⟩], some "1"⟩ },
      { (default : Scripted.Reply) with page := ⟨[], some "2"⟩ },
      { (default : Scripted.Reply) with error := some (.general "gone") }] := ⟨_, rfl⟩
  obtain ⟨m, hconnect⟩ :
      ∃ m, connect "trial" (listening Scripted.backend) config ⟨w, []⟩ = .ok m :=
    exists_connect "trial" hvalid (by rw [hw]; rfl)
  obtain ⟨os, hos⟩ : ∃ os : List Occurrence, os =
    .event (.request (.walk "" true fun _ _ => .ok ())) ::
      List.replicate 12 (.event (.step 0)) := ⟨_, rfl⟩
  obtain ⟨env, henv⟩ : ∃ env, env =
    Shared.alone (overheard Scripted.backend (.ofConfig "trial" config)) := ⟨_, rfl⟩
  obtain ⟨hfirst, hclient, hreturned, htokens⟩ : m.nextTask = 0 ∧
      ((m.after env (os.take 3)).task? 0).any (·.client.isSome) = true ∧
      ((m.after env os).task? 0).any (fun task =>
        task.returned? = some (.error (.general "gone")) ∧
          task.visited.reverse.map (·.name) = ["a", "b"]) = true ∧
      (askedBy env 0 m os).map (·.query.token) = [none, some "1", some "2"] := by
    -- the state is written out, for the run to be evaluated
    subst henv hconfig hos hw
    unfold connect at hconnect
    rw [hvalid] at hconnect
    cases hconnect
    decide +kernel
  subst henv
  have hops : Operates os := by
    intro r hr
    simp [hos] at hr
    subst hr
    rfl
  have hasked : m.Asked (.alone (overheard Scripted.backend (.ofConfig "trial" config))) os 0
      (.walk "" true fun _ _ => .ok ()) := ⟨[], by simp [hos], hfirst⟩
  obtain ⟨task₀, htask₀, hclient⟩ := (Option.any_eq_true _ _).1 hclient
  have hobtained : m.Obtained (.alone (overheard Scripted.backend (.ofConfig "trial" config)))
    os 0 := ⟨_, List.take_prefix 3 os, task₀, htask₀, hclient⟩
  obtain ⟨task, htask, hresult⟩ := (Option.any_eq_true _ _).1 hreturned
  obtain ⟨hreturned, hnames⟩ := of_decide_eq_true hresult
  have hended : task.phase = .ended (.error (.general "gone")) := by
    unfold Task.returned? at hreturned
    generalize task.phase = phase at hreturned
    cases phase with
    | ended result =>
      cases result with
      | error e =>
        cases hreturned
        rfl
      | ok outcome => cases hreturned
    | draining _ _ => cases hreturned
    | _ => cases hreturned
  obtain ⟨-, -, hall⟩ := interrupted_walk hconnect hops hasked
  obtain ⟨-, hends⟩ := (hall task htask).2 hobtained
  have hlead : ((Setup.ofConfig "trial" config).query "" true).lead = "" := by
    rw [hconfig]
    decide +kernel
  refine ⟨config, w, m, os, task, hconnect, hops, hasked, hobtained, htask, hended, ?_, htokens,
    hnames⟩
  rw [← hlead]
  exact (hends _ hended).1

end Interrupted

end Storage

end Depot
