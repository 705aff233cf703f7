import Depot.Proofs.Config.Validate
import Depot.Proofs.Listing.Items
import Depot.Proofs.Storage.Parties
import Depot.S3.Endpoint
import Mathlib.Data.List.Nodup

/-!
# Listings over a network

A listing is one request, which says all that its query does (`listing?_list`), and the reply is
taken as a page (`list_of_listing`). The page that is made of a document has the items of the page
that the document tells, in the same order (`Tells.items_eq`): on a page no key comes twice, so
there is only one way to put groups and objects in order.
-/

set_option autoImplicit false

namespace Depot

/-! ## Items in order -/

theorem Entry.map_name_untimed (entries : List Entry) :
    (entries.map Entry.untimed).map (·.name) = entries.map (·.name) := by
  rw [List.map_map]
  refine List.map_congr_left fun e _ => ?_
  cases e with
  | object name size modified => rfl
  | directory name => rfl

namespace Listed

/-- An item apart from its time. -/
def untimed : Listed → Listed
  | group key => group key
  | object a => object ⟨a.key, a.size, none⟩

theorem key_untimed (i : Listed) : i.untimed.key = i.key := by
  cases i with
  | group key => rfl
  | object a => rfl

theorem entry_untimed (lead : String) (i : Listed) :
    (i.untimed.entry lead).untimed = (i.entry lead).untimed := by
  cases i with
  | group key => rfl
  | object a => rfl

/-- Items are groups and objects. -/
theorem perm_groups_objects (items : List Listed) :
    ((items.filterMap group?).map group ++ (items.filterMap object?).map object).Perm items := by
  induction items with
  | nil => exact .nil
  | cons i items ih =>
    cases i with
    | group key => exact ih.cons _
    | object a => exact List.perm_middle.trans (ih.cons _)

/-- Items in the strict order of their keys have no other order by keys. -/
theorem eq_of_perm {items items' : List Listed} (hperm : items.Perm items')
    (hitems : items.Pairwise fun a b => a.key ≤ b.key)
    (hitems' : items'.Pairwise fun a b => a.key < b.key) : items = items' := by
  -- no key comes twice, so that items with the same key are the same item
  have hnodup : (items'.map (·.key)).Nodup :=
    List.pairwise_map.2 (hitems'.imp fun hlt => ne_of_lt hlt)
  refine List.Perm.eq_of_pairwise ?_ hitems (hitems'.imp fun hlt => le_of_lt hlt) hperm
  intro a b ha hb hab hba
  exact List.inj_on_of_nodup_map hnodup (hperm.subset ha) hb (String.le_antisymm hab hba)

end Listed

namespace S3

open Response (pageOf)

/-! ## Documents -/

section Documents

variable {l : ListingDocument} {page : Page}

theorem pageOf_sorted (l : ListingDocument) :
    (pageOf l).items.Pairwise fun a b => a.key ≤ b.key := by
  have htrans : ∀ a b c : Listed, decide (a.key ≤ b.key) = true → decide (b.key ≤ c.key) = true →
      decide (a.key ≤ c.key) = true := by
    intro a b c hab hbc
    simp only [decide_eq_true_eq] at hab hbc ⊢
    exact le_trans hab hbc
  have htotal : ∀ a b : Listed, (decide (a.key ≤ b.key) || decide (b.key ≤ a.key)) = true := by
    intro a b
    simp only [Bool.or_eq_true, decide_eq_true_eq]
    exact le_total a.key b.key
  exact (List.pairwise_mergeSort htrans htotal _).imp of_decide_eq_true

/-- The groups of the page of a document are those that it tells. -/
theorem ListingDocument.Tells.perm_groups (h : l.Tells page) :
    (l.groups.filterMap id).Perm (page.items.filterMap (·.group?)) := by
  have hperm := h.groups.filterMap id
  rwa [List.filterMap_map, Function.id_comp, List.filterMap_some] at hperm

/-- The objects of the page of a document are those that it tells, apart from their times. -/
theorem ListingDocument.Tells.perm_objects (h : l.Tells page) :
    ((l.objects.filterMap Response.object?).map fun a => (Listed.object a).untimed).Perm
      ((page.items.filterMap (·.object?)).map fun a => (Listed.object a).untimed) := by
  let restore : Option String × Int → Option Listed :=
    fun told => told.1.map fun key => .object ⟨key, told.2.toNat, none⟩
  have hperm := h.objects.filterMap restore
  rw [List.filterMap_map, List.filterMap_map] at hperm
  have hdocument : restore ∘ (fun o : ListedObject => (o.key, (o.size.getD 0).toInt)) =
      fun o => (Response.object? o).map fun a => (Listed.object a).untimed := by
    funext o
    simp only [restore, Function.comp_apply, Response.object?, Option.map_map]
    rfl
  have hpage : restore ∘ (fun a : Attributes => (some a.key, (a.size : Int))) =
      fun a => some (Listed.object a).untimed := by
    funext a
    rfl
  rw [hdocument, hpage, ← List.map_filterMap, List.filterMap_eq_map'] at hperm
  exact hperm

/-- **A document has only one page.** It has the items of the page that is told, in the same
order. -/
theorem ListingDocument.Tells.items_eq (h : l.Tells page)
    (hsorted : page.items.Pairwise fun a b => a.key < b.key) :
    (pageOf l).items.map (·.untimed) = page.items.map (·.untimed) := by
  apply Listed.eq_of_perm
  · have hdocument : (pageOf l).items.Perm ((l.groups.filterMap id).map .group ++
        (l.objects.filterMap Response.object?).map .object) := List.mergeSort_perm _ _
    have hpage := Listed.perm_groups_objects page.items
    refine (hdocument.map _).trans (List.Perm.trans ?_ (hpage.map _))
    rw [List.map_append, List.map_append, List.map_map, List.map_map, List.map_map, List.map_map]
    exact (h.perm_groups.map _).append h.perm_objects
  · rw [List.pairwise_map]
    simp only [Listed.key_untimed]
    exact pageOf_sorted l
  · rw [List.pairwise_map]
    simp only [Listed.key_untimed]
    exact hsorted

theorem ListingDocument.Tells.next_eq (h : l.Tells page) : (pageOf l).next = page.next := by
  show (if l.truncated = some true then l.next else none) = page.next
  rw [h.next]
  split
  · rfl
  · rename_i hlast
    rw [h.truncated, Option.not_isSome_iff_eq_none] at hlast
    exact hlast.symm

/-- **The document of a page tells the page**, if all sizes can be written down. -/
theorem tells_ofPage (page : Page)
    (hsizes : ∀ a, .object a ∈ page.items → a.size < 2 ^ 63) :
    (ListingDocument.ofPage page).Tells page where
  groups := List.reverse_perm _
  objects := by
    show List.Perm (List.map _ (List.reverse (List.map _ _))) _
    rw [List.map_reverse, List.map_map]
    refine (List.reverse_perm _).trans (.of_eq (List.map_congr_left fun a ha => ?_))
    obtain ⟨i, hi, ha⟩ := List.mem_filterMap.1 ha
    cases i with
    | group key => cases ha
    | object a' =>
      cases ha
      exact congrArg (some a.key, ·) (Int64.toInt_ofNat_of_lt (hsizes a hi))
  truncated := ⟨Option.some.inj, congrArg some⟩
  next := rfl

end Documents

/-! ## Requests and replies -/

section Exchange

variable {State : Type} {network : Network State} {a : Access} {q : Query} {w : World State}
  {l : ListingDocument} {c : Client}

/-- A value that is sent only if it is there is found under its name. -/
theorem lookup_toList (name name' : String) (value : Option String) :
    (value.map fun v => (name, v)).toList.lookup name' =
      if name' = name then value else none := by
  cases value with
  | none => simp
  | some v =>
    by_cases h : name' = name
    · subst h
      simp
    · simp [h, List.lookup_cons, beq_false_of_ne h]

theorem lookup_list (signature : Option Signature) (q : Query) {name : String}
    (hname : name ≠ "list-type") :
    (Request.list signature q).query.lookup name =
      ((if name = "continuation-token" then q.token else none).or
        (if name = "delimiter" then q.delimiter else none)).or
        (if name = "prefix" then if q.lead.isEmpty then none else some q.lead else none) := by
  have hlead : (if q.lead.isEmpty then [] else [("prefix", q.lead)]) =
      ((if q.lead.isEmpty then none else some q.lead).map fun v => ("prefix", v)).toList := by
    split
    · rfl
    · rfl
  have htype : [("list-type", "2")].lookup name = none := by
    rw [List.lookup_cons, beq_false_of_ne hname]
    rfl
  simp only [Request.list, hlead, List.lookup_append, lookup_toList, htype, Option.none_or]

theorem token?_list (signature : Option Signature) (q : Query) :
    (Request.list signature q).token? = q.token := by
  rw [Request.token?, lookup_list signature q (by decide)]
  simp

/-- **A request for a listing says what its query does.** -/
theorem listing?_list (signature : Option Signature) (q : Query) :
    (Request.list signature q).listing? = some q := by
  have htoken : (Request.list signature q).query.lookup "continuation-token" = q.token :=
    token?_list signature q
  have hdelimiter : (Request.list signature q).query.lookup "delimiter" = q.delimiter := by
    rw [lookup_list signature q (by decide)]
    simp
  -- an empty text is not sent, and is what is taken when none is sent
  have hlead : ((Request.list signature q).query.lookup "prefix").getD "" = q.lead := by
    rw [lookup_list signature q (by decide)]
    by_cases hempty : q.lead = ""
    · simp [hempty]
    · simp [hempty]
  unfold Request.listing?
  rw [if_pos ⟨rfl, rfl, rfl⟩, hdelimiter, hlead, htoken]
  rfl

theorem isSendable_list (signature : Option Signature) (h : (Text.trim q.bucket).isEmpty = false) :
    (Request.list signature q).isSendable = true := by
  show (!(Text.trim q.bucket).isEmpty && _) = true
  rw [h]
  rfl

theorem Reply.exists_response {reply : Reply} (h : reply.listing? = some l) :
    ∃ r, reply = .response r ∧ r.isSuccess = true ∧ r.complete = true ∧
      r.document = .listing l := by
  cases reply with
  | lost => cases h
  | response r =>
    unfold listing? at h
    cases hreceived : r.isSuccess && r.complete with
    | false => simp [hreceived] at h
    | true =>
      obtain ⟨hsuccess, hcomplete⟩ := Bool.and_eq_true_iff.1 hreceived
      refine ⟨r, rfl, hsuccess, hcomplete, ?_⟩
      cases hdocument : r.document with
      | listing l' =>
        simp only [hreceived, hdocument, Option.some.injEq] at h
        rw [h]
      | none | copied | failure _ _ | other => simp [hreceived, hdocument] at h

/-- A listing that is received is taken as the page of its document. -/
theorem list_of_listing (hbucket : (Text.trim q.bucket).isEmpty = false)
    (hlisting : (network.send (.list a.signature q) w.network).2.listing? = some l) :
    ((backend network a).list c q w).result = .ok (pageOf l) ∧
      ((backend network a).list c q w).world =
        { w with
          network := (network.send (.list a.signature q) w.network).1
          sent := .list a.signature q :: w.sent } := by
  obtain ⟨r, hreply, hsuccess, hcomplete, hdocument⟩ := Reply.exists_response hlisting
  have hpage : r.received.bind (·.page) = .ok (pageOf l) := by
    simp [Response.received, Response.page, hsuccess, hcomplete, hdocument, Except.bind]
  simp only [backend, telling, exchange, if_pos (isSendable_list a.signature hbucket), hreply,
    hpage, and_true]
  rfl

end Exchange

end S3

end Depot
