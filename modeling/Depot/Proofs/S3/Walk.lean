import Depot.Proofs.S3.Listing
import Depot.Proofs.Storage.Traversal

/-!
# Walks over a network

A walk over a network asks for one page after the other, each with the token of the reply before it
(`Sends`). Where the endpoint lists the objects of a store, the pages that remain are those of the
store, so both walks go through the same pages (`pagerOf`). The main statement is `walks_agree`.
-/

set_option autoImplicit false

namespace Depot.S3

open Storage (Env Machine Setup Pager Resting)
open Memory (Objects)

variable {State : Type} {network : Network State} {access : Access}

/-! ## Connecting -/

/-- A storage over a network is connected if its settings pass and there are credentials. -/
theorem exists_connect {files : LocalFiles} {config : Config} (hvalid : config.validate = .ok ())
    (haccess : Access.ofConfig files config = .ok access) (network : Network State)
    (state : State) : ∃ m, Storage.connect kind (backend network access) config (.start state) =
        .ok m ∧
      connect files network config state =
        .ok (⟨.ofConfig kind config, backend network access⟩, m) := by
  obtain ⟨m, hm⟩ : ∃ m, Storage.connect kind (backend network access) config (.start state) =
      .ok m := Storage.exists_connect kind hvalid rfl
  refine ⟨m, hm, ?_⟩
  unfold connect
  simp only [hvalid, haccess, hm, bind, Except.bind]
  rfl

/-- Nothing was sent before a storage is connected. -/
theorem world_of_connect {config : Config} {state : State} {m : Machine (World State) Writer}
    (h : Storage.connect kind (backend network access) config (.start state) = .ok m) :
    m.world.network = state ∧ m.world.sent = [] := by
  obtain ⟨-, -, -, hworld, -⟩ := Storage.connect_eq_ok h
  rw [hworld]
  exact ⟨rfl, rfl⟩

/-! ## Requests one after the other -/

theorem answer_concat (network : Network State) (requests : List Request) (r : Request)
    (state : State) :
    network.answer (requests ++ [r]) state =
      ((network.answer requests state).1 ++
          [(network.send r (network.answer requests state).2).2],
        (network.send r (network.answer requests state).2).1) := by
  induction requests generalizing state with
  | nil => rfl
  | cons first requests ih =>
    simp only [List.cons_append, Network.answer, ih]

/-- What was sent so far: requests for pages of a listing, each with the token of the reply before
it. The last token is that of the last reply. -/
structure Sends (network : Network State) (q : Query) (state : State) (requests : List Request)
    (last : Option String) (w : World State) : Prop where
  sent : w.sent = requests.reverse
  reached : w.network = (network.answer requests state).2
  listing : ∀ r ∈ requests, ∃ token, r.listing? = some { q with token := token }
  tokens : requests.map (·.token?) ++ [last] =
    none :: (network.answer requests state).1.map (·.token?)

/-- One more request is sent with the last token, and its reply has the next one. -/
theorem Sends.concat {q : Query} {state : State} {requests : List Request}
    {last : Option String} {w : World State} (h : Sends network q state requests last w)
    (signature : Option Signature) :
    let r := Request.list signature { q with token := last }
    Sends network q state (requests ++ [r]) (network.send r w.network).2.token?
      { w with network := (network.send r w.network).1, sent := r :: w.sent } := by
  intro r
  have hanswer := answer_concat network requests r state
  rw [← h.reached] at hanswer
  refine ⟨?_, ?_, ?_, ?_⟩
  · show r :: w.sent = _
    rw [h.sent, List.reverse_append]
    rfl
  · rw [hanswer]
  · intro r' hr'
    rcases List.mem_append.1 hr' with hr' | hr'
    · exact h.listing r' hr'
    · rw [List.mem_singleton.1 hr']
      exact ⟨last, listing?_list signature _⟩
  · rw [hanswer, List.map_append, List.map_append, List.map_singleton, List.map_singleton,
      token?_list, h.tokens]
    rfl

/-- Of all replies only the last one has a token that no request carries. -/
theorem Sends.tokens_eq {q : Query} {state : State} {requests : List Request}
    {last : Option String} {w : World State} (h : Sends network q state requests last w)
    (hne : requests ≠ []) : requests.map (·.token?) =
      none :: (network.answer requests state).1.dropLast.map (·.token?) := by
  have htokens := h.tokens
  have hreplies : (network.answer requests state).1.map (·.token?) ≠ [] := by
    intro hnil
    rw [hnil, List.append_eq_singleton_iff] at htokens
    rcases htokens with ⟨hrequests, -⟩ | ⟨-, hlast⟩
    · exact hne (List.map_eq_nil_iff.1 hrequests)
    · cases hlast
  -- each of the other requests carries the token of the reply before it
  have hfront := congrArg List.dropLast htokens
  rwa [List.dropLast_concat, List.dropLast_cons_of_ne_nil hreplies, ← List.map_dropLast] at hfront

/-! ## Pages one after the other -/

section Pages

variable {objects : Objects} {size calls : Nat} {q : Query} {state : State} {w : World State}
  {token : Option String} {pages : List Page} {first : Page}

/-- What remains of a listing behind a token, when as many requests were sent as pages are missing
from all of them. -/
structure Remains (network : Network State) (objects : Objects) (size : Nat) (q : Query)
    (state : State) (calls : Nat) (w : World State) (token : Option String) (pages : List Page) :
    Prop where
  remain : objects.Remain size q token pages
  sends : ∃ requests last, Sends network q state requests last w ∧
    (pages ≠ [] → last = token) ∧ requests.length + pages.length = calls

/-- **One page.** An endpoint that lists the objects answers with the next page that remains. -/
theorem Remains.list (h : Remains network objects size q state calls w token (first :: pages))
    (hbucket : (Text.trim q.bucket).isEmpty = false) (hserves : network.Serves objects size)
    (c : Client) :
    let a := (backend network access).list c { q with token := token } w
    (∃ page, a.result = .ok page ∧ page.next = first.next ∧
      (page.items.map fun i => (i.entry q.lead).untimed) =
        first.items.map fun i => (i.entry q.lead).untimed) ∧
      Remains network objects size q state calls a.world (first.next.or token) pages := by
  obtain ⟨requests, last, hsends, hlast, hcount⟩ := h.sends
  obtain ⟨hfirst, hend, -, hlater⟩ := h.remain.cons
  obtain rfl := hlast (List.cons_ne_nil _ _)
  obtain ⟨l, hlisting, htells⟩ :=
    hserves w.network _ _ (listing?_list access.signature { q with token := last })
  rw [← hfirst] at htells
  obtain ⟨hresult, hworld⟩ :=
    list_of_listing (c := c) (q := { q with token := last }) hbucket hlisting
  refine ⟨⟨Response.pageOf l, hresult, htells.next_eq, ?_⟩, ?_⟩
  · -- what is told of an entry is told by the item without its time
    have hitems := htells.items_eq (hfirst ▸ objects.page_sorted size _)
    have hentries := congrArg (List.map fun i => (i.entry q.lead).untimed) hitems
    simpa only [List.map_map, Function.comp_def, Listed.entry_untimed] using hentries
  · -- while pages remain, the token of the reply is the one behind which they do
    rw [hworld]
    refine ⟨hlater, _, _, hsends.concat access.signature, ?_, ?_⟩
    · intro hne
      have htoken : first.next ≠ none := fun hnone => hne (hend.1 hnone)
      obtain ⟨next, hnext⟩ := Option.ne_none_iff_exists'.1 htoken
      rw [Reply.token?, hlisting, Option.bind_some, htells.next, hnext]
      rfl
    · rw [List.length_append, List.length_singleton, Nat.add_assoc, Nat.add_comm 1]
      exact hcount

end Pages

/-- **There is such an endpoint** for all objects whose sizes can be written down. -/
theorem lister_serves {objects : Objects}
    (hsizes : ∀ l o, objects.get? l = some o → o.data.size < 2 ^ 63) (size : Nat) :
    (Network.lister objects size).Serves objects size := by
  intro _ r q hq
  refine ⟨.ofPage (objects.page size q), ?_, tells_ofPage _ fun a ha => ?_⟩
  · simp only [Network.lister, hq]
    rfl
  · have hitem : .object a ∈ objects.items q :=
      (List.filter_sublist.subset ((List.take_sublist _ _).subset ha))
    obtain ⟨key, o, hmatching, hitem⟩ := Objects.mem_items.1 hitem
    obtain ⟨hget, hlead⟩ := Objects.mem_matching.1 hmatching
    rcases Objects.item_cases hlead q.delimiter o with ⟨g, -, -, hgroup⟩ | ⟨-, hobject⟩
    · rw [hgroup] at hitem
      cases hitem
    · rw [hobject] at hitem
      cases hitem
      exact hsizes _ o hget

/-! ## Walks -/

section Walks

variable {objects : Objects} {size : Nat}

/-- The pages of an endpoint that lists the objects of a store, of which a number of them are asked
for until there are none left. -/
def pagerOf (access : Access) (setup : Setup)
    (hbucket : (Text.trim setup.bucket).isEmpty = false) (hserves : network.Serves objects size)
    (state : State) (calls : Nat) (path : String) (recursive : Bool) :
    Pager (⟨setup, backend network access⟩ : Env (World State) Writer) path recursive
      Entry.untimed where
  Remain := Remains network objects size (setup.query path recursive) state calls
  valid _ _ := rfl
  create := by
    rintro w token pages ⟨hremain, requests, last, hsends, hrest⟩
    refine ⟨rfl, hremain, requests, last, ?_, hrest⟩
    exact ⟨hsends.sent, hsends.reached, hsends.listing, hsends.tokens⟩
  last := fun h => h.remain.cons.2.1
  full := fun h => h.remain.cons.2.2.1
  list := fun c h => h.list hbucket hserves c

/-- **Walks over a network agree with walks over a store in memory.** The endpoint answers every
request for a listing with the page that the store has, its groups and its objects in any order.
Then both walks of any path come to an end, and however the steps are scheduled:

- they visit the same entries in the same order, apart from their times;
- as many requests are sent over the network as calls are made on the store;
- they all ask for a page of the one listing, the first one without a token, and each of the others
  with the token of the reply before it. -/
theorem walks_agree {files : LocalFiles} {config : Config} (hvalid : config.validate = .ok ())
    (haccess : Access.ofConfig files config = .ok access) {store : Memory}
    (hstore : store.Unfailing) (hsize : 1 ≤ store.pageSize)
    (hserves : network.Serves store.objects store.pageSize) (state : State) (kind₀ : String)
    (path : String) (recursive : Bool) :
    let env₀ : Env Memory Memory.Writer := ⟨.ofConfig kind₀ config, Memory.backend⟩
    let env : Env (World State) Writer := ⟨.ofConfig kind config, backend network access⟩
    ∃ m₀ m, Storage.connect kind₀ Memory.backend config store = .ok m₀ ∧
      connect files network config state = .ok (env, m) ∧ ∃ entries calls,
        (∃ found m', m₀.Walks env₀ path recursive found m') ∧
        (∀ found m', m₀.Walks env₀ path recursive found m' →
          found.map (·.map Entry.untimed) = .ok entries ∧
            m'.world.served.length = m₀.world.served.length + calls) ∧
        (∃ found m', m.Walks env path recursive found m') ∧
        ∀ found m', m.Walks env path recursive found m' →
          found.map (·.map Entry.untimed) = .ok entries ∧
            ∃ requests, m'.world.sent = requests.reverse ∧ requests.length = calls ∧
              (∀ r ∈ requests, ∃ token, r.listing? =
                some { env.setup.query path recursive with token := token }) ∧
              requests.map (·.token?) =
                none :: (network.answer requests state).1.dropLast.map (·.token?) := by
  intro env₀ env
  have hlists : Storage.Lists store.objects store.pageSize store := ⟨hstore, rfl, rfl⟩
  obtain ⟨m₀, hm₀⟩ : ∃ m₀, Storage.connect kind₀ Memory.backend config store = .ok m₀ :=
    Storage.exists_connect kind₀ hvalid hlists.create.2
  obtain ⟨m, hm, hconnect⟩ := exists_connect hvalid haccess network state
  have hsettled := Storage.Settled.of_connect hm₀ hstore
  obtain ⟨hbucket, -⟩ := (Config.validate_eq_ok_iff config).1 hvalid
  -- the pages of the store are the ones that both walks go through
  obtain ⟨pages, hpages⟩ := Memory.exists_cuts hsize
    (store.objects.items ((Setup.ofConfig kind config).query path recursive))
  have hquery : (Setup.ofConfig kind₀ config).query path recursive =
      (Setup.ofConfig kind config).query path recursive := rfl
  have hpages₀ := hpages
  rw [← hquery] at hpages₀
  let pager := pagerOf access (.ofConfig kind config) hbucket hserves state pages.length path
    recursive
  have hstart : pager.Remain m.world none pages := by
    obtain ⟨hnetwork, hsent⟩ := world_of_connect hm
    refine ⟨.of_cuts hpages, [], none, ⟨hsent, hnetwork, nofun, rfl⟩, fun _ => rfl, ?_⟩
    exact Nat.zero_add _
  have hresting : Resting m := .of_connect hm
  refine ⟨m₀, m, hm₀, hconnect,
    ((Setup.ofConfig kind₀ config).entries store.objects path recursive).map Entry.untimed,
    pages.length, ?_, ?_, ?_, ?_⟩
  · exact ⟨_, hsettled.exists_walks _ hsize path recursive⟩
  · intro found m' hwalks
    obtain ⟨rfl, -, hserved⟩ := hsettled.of_walks_cuts hpages₀ hwalks
    exact ⟨rfl, hserved⟩
  · obtain ⟨entries, m', hwalks⟩ := pager.exists_walks hpages.ne_nil hresting hstart
    exact ⟨_, m', hwalks⟩
  · intro found m' hwalks
    obtain ⟨⟨entries, rfl, hentries⟩, ⟨token, -, requests, last, hsends, -, hcount⟩, -⟩ :=
      pager.of_walks hpages.ne_nil hresting hstart hwalks
    refine ⟨?_, requests, hsends.sent, hcount, hsends.listing, hsends.tokens_eq ?_⟩
    · rw [hpages.flatMap_items, Setup.query_lead] at hentries
      rw [Setup.entries, List.map_map]
      exact congrArg Except.ok hentries
    · rintro rfl
      exact hpages.ne_nil (List.length_eq_zero_iff.1 hcount.symm)

/-- A directory that is listed between two objects, two items on each page, over a network whose
endpoint tells objects and groups apart from each other and in reverse order. -/
theorem walks_agree_of_group :
    ∃ (config : Config) (store : Memory) (m m' : Machine (World Unit) Writer)
      (entries : List Entry),
      let network := Network.lister store.objects store.pageSize
      let env : Env (World Unit) Writer := ⟨.ofConfig kind config, backend network .unsigned⟩
      store.objects.keys config.bucket = ["d", "d.e", "d/x", "d0"] ∧ store.pageSize = 2 ∧
      connect (fun _ => .error .missingFile) network config () = .ok (env, m) ∧
      m.Walks env "" false (.ok entries) m' ∧
      entries.map (·.name) = ["d", "d.e", "d/", "d0"] ∧ m'.world.sent.length = 2 := by
  let config : Config :=
    { Config.standard with bucket := "b", endpoint := some "http://localhost" }
  let o : Memory.StoredObject := ⟨.empty, default, ⟨none, []⟩⟩
  let objects : Objects :=
    ["d0", "d/x", "d.e", "d"].foldl (fun os key => os.insert ⟨"b", key⟩ o) .empty
  let store : Memory := { Memory.new 2 with objects }
  have hvalid : config.validate = .ok () :=
    Config.validate_endpoint (Config.validate_standard (by decide)) rfl
  have hstore : store.Unfailing := by
    intro call n h
    cases h
  have hsizes : ∀ l o, objects.get? l = some o → o.data.size < 2 ^ 63 := by
    have hentries : ∀ e ∈ objects.entries, e.2.data.size < 2 ^ 63 := by decide +kernel
    intro l o hget
    exact hentries (l, o) (Objects.mem_entries_iff.2 hget)
  obtain ⟨m₀, m, hm₀, hconnect, told, calls, ⟨found₀, m₀', hwalks₀⟩, hall₀, ⟨found, m', hwalks⟩,
      hall⟩ :=
    @walks_agree Unit (.lister objects 2) .unsigned
      (fun _ => .error .missingFile) config hvalid rfl store hstore (by decide)
      (lister_serves hsizes 2) () "memory" "" false
  obtain ⟨htold, hcalls⟩ := hall₀ found₀ m₀' hwalks₀
  obtain ⟨hfound, requests, hsent, hrequests, -⟩ := hall found m' hwalks
  -- what the walk over the store finds, and with how many calls
  obtain ⟨pages, hpages⟩ := Memory.exists_cuts (show 1 ≤ 2 by decide)
    (objects.items ((Setup.ofConfig "memory" config).query "" false))
  obtain ⟨rfl, -, hserved⟩ :=
    (Storage.Settled.of_connect hm₀ hstore).of_walks_cuts hpages hwalks₀
  have hlength := hpages.length_eq (by decide)
  have hitems : (objects.items ((Setup.ofConfig "memory" config).query "" false)).length = 4 := by
    decide +kernel
  rw [hitems] at hlength
  have hnames : ((Setup.ofConfig "memory" config).entries objects "" false).map (·.name) =
      ["d", "d.e", "d/", "d0"] := by
    decide +kernel
  cases found with
  | error e => cases hfound
  | ok entries =>
    refine ⟨config, store, m, m', entries, by decide +kernel, rfl, hconnect, hwalks, ?_, ?_⟩
    · have hsame : entries.map Entry.untimed = _ := Except.ok.inj (hfound.trans htold.symm)
      rw [← Entry.map_name_untimed, hsame, Entry.map_name_untimed]
      exact hnames
    · rw [hsent, List.length_reverse, hrequests]
      omega

end Walks

end Depot.S3
