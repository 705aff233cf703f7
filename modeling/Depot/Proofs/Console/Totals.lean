import Depot.Proofs.Console.Document
import Depot.Proofs.S3.Truncation

/-!
# The totals of a listing

The document of a listing counts the objects that its walk has visited, and adds up their sizes in
64 bits. The count is exact. The sum is what is left of the exact one after division by the number
of the values of a word (`toNat_totalSize`), hence exact if and only if the exact one fits in a word
(`Invocation.run_totals`). Nothing keeps a listing from going beyond that: an endpoint can tell of
sizes just below half of a word, and `Invocation.run_totals_wraps` is a run that lists three objects
and tells a total of no bytes.
-/

set_option autoImplicit false

namespace Depot.Console

open Depot.Json (Value)
open S3 (replyOf)

/-! ## The sum of sizes -/

/-- The number of the values of a word. -/
def wordSize : Nat := Nat.pow 2 64

/-- The sizes of the objects among some entries, summed up without a limit. -/
def exactSize (entries : List Entry) : Nat := ((objectsOf entries).map (·.size)).sum

/-- Sizes that are added up in a word, onto what is there already. -/
theorem toNat_foldl_size (entries : List Entry) (start : UInt64) :
    (entries.foldl (fun n e => n + UInt64.ofNat e.size) start).toNat =
      (start.toNat + (entries.map (·.size)).sum) % wordSize := by
  induction entries generalizing start with
  | nil =>
    have hstart : start.toNat < wordSize := start.toNat_lt
    simp only [List.foldl_nil, List.map_nil, List.sum_nil, Nat.add_zero, Nat.mod_eq_of_lt hstart]
  | cons e entries ih =>
    have hadd : (start + UInt64.ofNat e.size).toNat = (start.toNat + e.size) % wordSize := by
      rw [UInt64.toNat_add, UInt64.toNat_ofNat']
      exact Nat.add_mod_mod _ _ _
    rw [List.foldl_cons, ih, hadd, Nat.mod_add_mod, List.map_cons, List.sum_cons, Nat.add_assoc]

/-- The sum in a word is the exact one up to multiples of the number of its values. -/
theorem toNat_totalSize (entries : List Entry) :
    (totalSize entries).toNat = exactSize entries % wordSize := by
  rw [totalSize, toNat_foldl_size, exactSize]
  exact congrArg (· % wordSize) (Nat.zero_add _)

/-! ## The totals in a document -/

/-- A document tells these totals. -/
structure TotalsAre (v : Value) (objects bytes : Nat) : Prop where
  objects : ∃ members, v = .object members ∧
    members.lookup "total_objects" = some (.number (.integer objects))
  bytes : ∃ members, v = .object members ∧
    members.lookup "total_size_bytes" = some (.number (.integer bytes))

/-- The totals of a listing are the number of its objects and the sum in a word, and no others. -/
theorem totalsAre_listingValue {entries : List Entry} {objects bytes : Nat} :
    TotalsAre (listingValue entries) objects bytes ↔
      objects = entries.countP (!·.isDirectory) ∧ bytes = exactSize entries % wordSize := by
  rw [← toNat_totalSize, List.countP_eq_length_filter]
  constructor
  · rintro ⟨⟨_, hv, hobjects⟩, ⟨_, hv', hbytes⟩⟩
    cases hv
    cases hv'
    cases hobjects
    cases hbytes
    exact ⟨rfl, rfl⟩
  · rintro ⟨rfl, rfl⟩
    exact ⟨⟨_, rfl, rfl⟩, ⟨_, rfl, rfl⟩⟩

/-- There is no more than one document on a stream. -/
theorem Transcript.Holds.eq {t : Transcript} {v v' : Value} (h : t.Holds v) (h' : t.Holds v') :
    v = v' := by
  obtain ⟨text, hbytes, hv⟩ := h
  obtain ⟨text', hbytes', hv'⟩ := h'
  have htext : text = text' := String.toByteArray_inj.1 (hbytes.symm.trans hbytes')
  rw [htext, hv'] at hv
  exact (Except.ok.inj hv).symm

/-! ## Runs -/

section Run

variable {State : Type} (network : S3.Network State) (vars : Config.Variables)
  (files : LocalFiles) (terminal : Bool) (i : Invocation) (state : State)
  {path : String} {recursive : Bool} {visited : List Entry}

/-- **Totals of a listing.** In JSON mode, whatever the endpoint answers: if the walk of a listing
comes to its end, the run succeeds with one document, whose items are the entries that were visited.
It tells how many of them are objects, and the sum of their sizes modulo the number of the values of
a word. So the total is the exact sum if and only if that is less than the number of the values of a
word. -/
theorem Invocation.run_totals (hjson : i.globals.json = true)
    (hcommand : i.command = .list path recursive)
    (h : i.globals.Visits network vars files state path recursive visited) :
    let report := (i.run network vars files terminal state).report
    let objects := visited.countP (!·.isDirectory)
    report.status.code = 0 ∧ ∃ v, report.transcript.Holds v ∧ ItemsAre v visited ∧
      TotalsAre v objects (exactSize visited % wordSize) ∧
      (TotalsAre v objects (exactSize visited) ↔ exactSize visited < wordSize) := by
  intro report objects
  refine ⟨i.code_eq_zero network vars files terminal state hcommand h, listingValue visited,
    i.holds_of_visits network vars files terminal state hjson hcommand h,
    itemsAre_listingValue h.bounded.size, totalsAre_listingValue.2 ⟨rfl, rfl⟩, ?_⟩
  rw [totalsAre_listingValue]
  constructor
  · rintro ⟨-, hexact⟩
    rw [hexact]
    exact Nat.mod_lt _ (by decide)
  · intro hfits
    exact ⟨rfl, (Nat.mod_eq_of_lt hfits).symm⟩

end Run

/-- A listing of the root in JSON mode, without any settings but those of the invocation. -/
def Invocation.listing (recursive : Bool) : Invocation :=
  ⟨⟨none, some "b", some "http://localhost", false, true, false, false, 0⟩, .list "" recursive⟩

/-- Two objects, with a group between them. -/
theorem Invocation.run_totals_of_pages :
    let replies := [replyOf ⟨[⟨some "a", some 3, none⟩], [], some true, some "1"⟩,
      replyOf ⟨[], [some "b/"], some true, some "2"⟩,
      replyOf ⟨[⟨some "c", some 4, none⟩], [], none, none⟩]
    let files : LocalFiles := fun _ => .error .missingFile
    let i := Invocation.listing false
    let report := (i.run .script [] files false replies).report
    report.status.code = 0 ∧ ∃ v visited, report.transcript.Holds v ∧ ItemsAre v visited ∧
      i.globals.Visits .script [] files replies "" false visited ∧ TotalsAre v 2 7 := by
  intro replies files i report
  let visited : List Entry := [.object "a" 3 none, .directory "b/", .object "c" 4 none]
  have hvisits : i.globals.Visits .script [] files replies "" false visited :=
    Globals.visits_of_visited? (by decide +kernel)
  obtain ⟨hcode, v, hholds, hitems, -, hexact⟩ :=
    i.run_totals .script [] files false replies rfl rfl hvisits
  have hfits : exactSize visited < wordSize := by decide
  exact ⟨hcode, v, visited, hholds, hitems, hvisits, hexact.2 hfits⟩

/-- Three objects of the sizes that an endpoint can tell: the listing succeeds, and the one document
that it writes tells a total of no bytes, although there are as many as a word has values. -/
theorem Invocation.run_totals_wraps :
    let replies := [replyOf ⟨[⟨some "a", some 9223372036854775807, none⟩], [], some true, some "1"⟩,
      replyOf ⟨[⟨some "b", some 9223372036854775807, none⟩], [], some true, some "2"⟩,
      replyOf ⟨[⟨some "c", some 2, none⟩], [], none, none⟩]
    let files : LocalFiles := fun _ => .error .missingFile
    let i := Invocation.listing true
    let report := (i.run .script [] files false replies).report
    ∃ visited, i.globals.Visits .script [] files replies "" true visited ∧
      visited.countP (!·.isDirectory) = 3 ∧ exactSize visited = 18446744073709551616 ∧
      report.status.code = 0 ∧ (∃ v, report.transcript.Holds v ∧ ItemsAre v visited) ∧
      ∀ v, report.transcript.Holds v → TotalsAre v 3 0 ∧ ¬ TotalsAre v 3 (exactSize visited) := by
  intro replies files i report
  let visited : List Entry :=
    [.object "a" 9223372036854775807 none, .object "b" 9223372036854775807 none,
      .object "c" 2 none]
  have hvisits : i.globals.Visits .script [] files replies "" true visited :=
    Globals.visits_of_visited? (by decide +kernel)
  have hcount : visited.countP (!·.isDirectory) = 3 := by decide
  have hsum : exactSize visited = 18446744073709551616 := by decide
  have hwrapped : exactSize visited % wordSize = 0 := by decide
  have hholds := i.holds_of_visits .script [] files false replies rfl rfl hvisits
  refine ⟨visited, hvisits, hcount, hsum,
    i.code_eq_zero .script [] files false replies rfl hvisits,
    ⟨_, hholds, itemsAre_listingValue hvisits.bounded.size⟩, ?_⟩
  intro v hv
  rw [hv.eq hholds]
  constructor
  · exact totalsAre_listingValue.2 ⟨hcount.symm, hwrapped.symm⟩
  · intro htotals
    obtain ⟨-, hbytes⟩ := totalsAre_listingValue.1 htotals
    rw [hwrapped, hsum] at hbytes
    exact absurd hbytes (by decide)

end Depot.Console
