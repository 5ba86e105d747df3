/-
  Which facet of a diamond answers a selector
  (contracts/src/diamond/facets/cut/DiamondCutBase.sol, DiamondCutFacet.sol,
  facets/loupe/DiamondLoupeBase.sol and Diamond.sol).

  The initializer of a cut fails, or it returns with another owner.
-/

import River.Contracts.Space
import River.Lib.Machine
import River.Lib.ReverseIndex

namespace River.Contracts

open River.Lib Function EnumerableSet

abbrev Selector := BitVec 32

inductive FacetCutAction where
  | add | replace | remove

structure FacetCut where
  facetAddress : Address
  action : FacetCutAction
  functionSelectors : List Selector

inductive DiamondError where
  | invalidSelector | invalidFacetCutLength
  | functionAlreadyExists (selector : Selector)
  | functionFromSameFacetAlreadyExists (selector : Selector)
  | invalidFacetRemoval (facet : Address) (selector : Selector)
  | functionDoesNotExist (facet : Address)
  | invalidFacet (facet : Address)
  | invalidFacetSelectors (facet : Address)
  | immutableFacet
  | invalidContract (init : Address)
  | notOwner (account : Address) | ownableZeroAddress
  | alreadyInitialized (version : Nat)
  | overflow
  | delegateCallFailed

structure DiamondCutLayout where
  facets : EnumerableSet Address
  facetBySelector : Selector → Address
  selectorsByFacet : Address → EnumerableSet Selector

def DiamondCutLayout.empty : DiamondCutLayout := ⟨.empty, fun _ => 0, fun _ => .empty⟩

/-! ## Cutting -/

namespace DiamondCutBase

variable (facet : Address) (ds : DiamondCutLayout)

def addSelector (selector : Selector) : Except DiamondError DiamondCutLayout :=
  if selector = 0 then .error .invalidSelector
  else if ds.facetBySelector selector ≠ 0 then .error (.functionAlreadyExists selector)
  else .ok { ds with
    facetBySelector := update ds.facetBySelector selector facet
    selectorsByFacet := update ds.selectorsByFacet facet
      ((ds.selectorsByFacet facet).add selector) }

def insertFacet : DiamondCutLayout :=
  if facet ∉ ds.facets then { ds with facets := ds.facets.add facet } else ds

def dropFacet : DiamondCutLayout :=
  if (ds.selectorsByFacet facet).values.length = 0 then { ds with facets := ds.facets.remove facet }
  else ds

def addFacet (selectors : List Selector) (ds : DiamondCutLayout) :
    Except DiamondError DiamondCutLayout :=
  selectors.foldlM (addSelector facet) (insertFacet facet ds)

def removeSelector (selector : Selector) : Except DiamondError DiamondCutLayout :=
  if selector = 0 then .error .invalidSelector
  else if ds.facetBySelector selector ≠ facet then .error (.invalidFacetRemoval facet selector)
  else .ok { ds with
    facetBySelector := update ds.facetBySelector selector 0
    selectorsByFacet := update ds.selectorsByFacet facet
      ((ds.selectorsByFacet facet).remove selector) }

def removeFacet (this facet : Address) (selectors : List Selector) (ds : DiamondCutLayout) :
    Except DiamondError DiamondCutLayout :=
  if facet = this then .error .immutableFacet
  else if facet ∉ ds.facets then .error (.invalidFacet facet)
  else do
    let ds ← selectors.foldlM (removeSelector facet) ds
    .ok (dropFacet facet ds)

def replaceSelector (this facet : Address) (ds : DiamondCutLayout) (selector : Selector) :
    Except DiamondError DiamondCutLayout :=
  if selector = 0 then .error .invalidSelector
  else
    let oldFacet := ds.facetBySelector selector
    if oldFacet = this then .error .immutableFacet
    else if oldFacet = 0 then .error (.functionDoesNotExist facet)
    else if oldFacet = facet then .error (.functionFromSameFacetAlreadyExists selector)
    else
      -- overwrite selector to new facet
      let removed := update ds.selectorsByFacet oldFacet
        ((ds.selectorsByFacet oldFacet).remove selector)
      .ok (dropFacet oldFacet { ds with
        facetBySelector := update ds.facetBySelector selector facet
        selectorsByFacet := update removed facet ((removed facet).add selector) })

def replaceFacet (this facet : Address) (selectors : List Selector) (ds : DiamondCutLayout) :
    Except DiamondError DiamondCutLayout :=
  if facet = this then .error .immutableFacet
  else selectors.foldlM (replaceSelector this facet) (insertFacet facet ds)

def validateFacetCut (this : Address) (codeLength : Address → Nat) (facetCut : FacetCut) :
    Except DiamondError Unit :=
  if facetCut.facetAddress = 0 then .error (.invalidFacet facetCut.facetAddress)
  else if facetCut.facetAddress ≠ this ∧ codeLength facetCut.facetAddress = 0 then
    .error (.invalidFacet facetCut.facetAddress)
  else if facetCut.functionSelectors.length = 0 then
    .error (.invalidFacetSelectors facetCut.facetAddress)
  else .ok ()

def cutFacet (this : Address) (codeLength : Address → Nat) (ds : DiamondCutLayout)
    (facetCut : FacetCut) : Except DiamondError DiamondCutLayout := do
  validateFacetCut this codeLength facetCut
  match facetCut.action with
  | .add => addFacet facetCut.facetAddress facetCut.functionSelectors ds
  | .replace => replaceFacet this facetCut.facetAddress facetCut.functionSelectors ds
  | .remove => removeFacet this facetCut.facetAddress facetCut.functionSelectors ds

def cutFacets (this : Address) (codeLength : Address → Nat) (facetCuts : List FacetCut)
    (ds : DiamondCutLayout) : Except DiamondError DiamondCutLayout :=
  if facetCuts.length = 0 then .error .invalidFacetCutLength
  else facetCuts.foldlM (cutFacet this codeLength) ds

end DiamondCutBase

/-! ## Reading -/

structure LoupeFacet where
  facet : Address
  selectors : List Selector

namespace DiamondLoupeBase

variable (ds : DiamondCutLayout)

def facetSelectors (facet : Address) : List Selector :=
  (ds.selectorsByFacet facet).values

def facetAddresses : List Address := ds.facets.values

def facets : List LoupeFacet :=
  (facetAddresses ds).map fun facetAddress => ⟨facetAddress, facetSelectors ds facetAddress⟩

def listed : List (Address × Selector) :=
  (facets ds).flatMap fun facet => facet.selectors.map (facet.facet, ·)

end DiamondLoupeBase

/-! ## The diamond -/

structure Diamond where
  cut : DiamondCutLayout
  owner : Address
  version : Nat
  initializing : Bool

structure CutArgs where
  facetCuts : List FacetCut
  init : Address
  codeLength : Address → Nat
  delegateCall : Option Address

inductive DiamondMessage where
  | constructor (args : CutArgs)
  | diamondCut (msgSender : Address) (args : CutArgs)
  | transferOwnership (msgSender newOwner : Address)

namespace Diamond

def init : Diamond := ⟨.empty, 0, 0, false⟩

def initializeDiamondCut (args : CutArgs) (d : Diamond) : Except DiamondError Diamond :=
  if args.init = 0 then .ok d
  else if args.codeLength args.init = 0 then .error (.invalidContract args.init)
  else
    match args.delegateCall with
    | none => .error .delegateCallFailed
    | some owner => .ok { d with owner := owner }

def performCut (this : Address) (args : CutArgs) (d : Diamond) : Except DiamondError Diamond := do
  let cut ← DiamondCutBase.cutFacets this args.codeLength args.facetCuts d.cut
  initializeDiamondCut args { d with cut := cut }

variable (d : Diamond)

def initializer (body : Diamond → Except DiamondError Diamond) : Except DiamondError Diamond :=
  if d.version ≥ 1 then .error (.alreadyInitialized d.version)
  else do
    let d ← body { d with version := 1, initializing := true }
    .ok { d with initializing := false }

def reinitializer (version : Nat) (body : Diamond → Except DiamondError Diamond) :
    Except DiamondError Diamond :=
  if d.initializing ∨ d.version ≥ version then .error (.alreadyInitialized d.version)
  else do
    let d ← body { d with version := version, initializing := true }
    .ok { d with initializing := false }

def nextVersion : Except DiamondError Nat := addChecked .overflow 32 d.version 1

def onlyOwner (msgSender : Address) : Except DiamondError Unit :=
  if msgSender ≠ d.owner then .error (.notOwner msgSender) else .ok ()

def setOwner (newOwner : Address) : Except DiamondError Diamond :=
  if newOwner = 0 then .error .ownableZeroAddress else .ok { d with owner := newOwner }

def answer (this : Address) (d : Diamond) : DiamondMessage → Except DiamondError Diamond
  | .constructor args => d.initializer (performCut this args)
  | .diamondCut msgSender args => do
    d.onlyOwner msgSender
    let version ← d.nextVersion
    d.reinitializer version (performCut this args)
  | .transferOwnership msgSender newOwner => do
    d.onlyOwner msgSender
    d.setOwner newOwner

end Diamond

/-- A diamond deployed at `this`. -/
def diamond (this : Address) : Machine Diamond DiamondMessage (Option DiamondError) :=
  .ofCall (Diamond.answer this)

/-! ## Agreement -/

namespace DiamondCutLayout

/-- Calls of the selector go to the facet. -/
def RoutedTo (ds : DiamondCutLayout) (selector : Selector) (facet : Address) : Prop :=
  facet ≠ 0 ∧ ds.facetBySelector selector = facet

instance (ds : DiamondCutLayout) (selector : Selector) (facet : Address) :
    Decidable (ds.RoutedTo selector facet) :=
  inferInstanceAs (Decidable (_ ∧ _))

def HasSelector (ds : DiamondCutLayout) (facet : Address) : Prop :=
  ∃ selector, selector ∈ ds.selectorsByFacet facet

structure Routing (ds : DiamondCutLayout) (pending : List Address) : Prop where
  lists : Lists ds.selectorsByFacet ds.facetBySelector 0
  zero : ∀ selector, selector ∉ ds.selectorsByFacet 0
  facets : ∀ facet, facet ∈ ds.facets ↔ facet ∈ pending ∨ ds.HasSelector facet

def Keeps (this : Address) (ds ds' : DiamondCutLayout) : Prop :=
  ∀ selector, ds.RoutedTo selector this → ds'.RoutedTo selector this

variable {this facet : Address} {pending : List Address} {selector : Selector}
  {ds ds' ds0 : DiamondCutLayout}

theorem Routing.mem_iff (h : ds.Routing pending) :
    selector ∈ ds.selectorsByFacet facet ↔ ds.RoutedTo selector facet := by
  by_cases hzero : facet = 0
  · subst hzero
    exact iff_of_false (h.zero selector) fun hr => hr.1 rfl
  · rw [h.lists selector facet hzero]
    exact (and_iff_right hzero).symm

theorem length_eq_zero_iff (ds : DiamondCutLayout) (facet : Address) :
    (ds.selectorsByFacet facet).values.length = 0 ↔ ¬ds.HasSelector facet := by
  rw [List.length_eq_zero_iff, List.eq_nil_iff_forall_not_mem]
  exact not_exists.symm

theorem Routing.pend (h : ds.Routing pending) (hmem : facet ∈ ds.facets) :
    ds.Routing (facet :: pending) := by
  refine ⟨h.lists, h.zero, fun f => ?_⟩
  rw [List.mem_cons, or_assoc, ← h.facets]
  constructor
  · exact .inr
  · rintro (rfl | hf)
    · exact hmem
    · exact hf

theorem Routing.settle (h : ds.Routing (facet :: pending)) (hselector : ds.HasSelector facet) :
    ds.Routing pending := by
  refine ⟨h.lists, h.zero, fun f => ?_⟩
  rw [h.facets, List.mem_cons, or_assoc]
  constructor
  · rintro (rfl | hf)
    · exact .inr hselector
    · exact hf
  · exact .inr

theorem Routing.frame (h : ds.Routing pending) (hzero : 0 ∉ pending)
    (hlists : Lists ds'.selectorsByFacet ds'.facetBySelector 0) (hfacets : ds'.facets = ds.facets)
    (hsame : ∀ f, f ∉ pending → ds'.selectorsByFacet f = ds.selectorsByFacet f) :
    ds'.Routing pending := by
  refine ⟨hlists, fun s => ?_, fun f => ?_⟩
  · rw [hsame 0 hzero]
    exact h.zero s
  rw [hfacets, h.facets]
  by_cases hf : f ∈ pending
  · exact iff_of_true (.inl hf) (.inl hf)
  · unfold HasSelector
    rw [hsame f hf]

theorem Keeps.refl (this : Address) (ds : DiamondCutLayout) : Keeps this ds ds := fun _ h => h

theorem Keeps.update (h : Keeps this ds0 ds) (hother : ¬ds.RoutedTo selector this)
    (hupdate : ds'.facetBySelector = update ds.facetBySelector selector value) :
    Keeps this ds0 ds' := by
  intro s hs
  have hnow := h s hs
  have hne : s ≠ selector := fun heq => hother (heq ▸ hnow)
  refine ⟨hnow.1, ?_⟩
  rw [hupdate, update_of_ne hne]
  exact hnow.2

end DiamondCutLayout

namespace DiamondCutBase

open DiamondCutLayout

variable {this facet : Address} {pending : List Address} {selector : Selector}
  {selectors : List Selector} {ds ds' ds0 : DiamondCutLayout}

/-! ## One selector -/

theorem dropFacet_facetBySelector (facet : Address) (ds : DiamondCutLayout) :
    (dropFacet facet ds).facetBySelector = ds.facetBySelector := by
  unfold dropFacet
  split
  · rfl
  · rfl

theorem dropFacet_selectorsByFacet (facet : Address) (ds : DiamondCutLayout) :
    (dropFacet facet ds).selectorsByFacet = ds.selectorsByFacet := by
  unfold dropFacet
  split
  · rfl
  · rfl

theorem insertFacet_routing (h : ds.Routing pending) (facet : Address) :
    (insertFacet facet ds).Routing (facet :: pending) := by
  unfold insertFacet
  split
  · refine ⟨h.lists, h.zero, fun f => ?_⟩
    show f ∈ ds.facets.add facet ↔ f ∈ facet :: pending ∨ ds.HasSelector f
    rw [mem_add, h.facets, List.mem_cons, or_comm, or_assoc]
  · rename_i hmem
    exact h.pend (not_not.1 hmem)

theorem dropFacet_routing (h : ds.Routing (facet :: pending)) (hnot : facet ∉ pending) :
    (dropFacet facet ds).Routing pending := by
  unfold dropFacet
  split
  · rename_i hnone
    rw [length_eq_zero_iff] at hnone
    refine ⟨h.lists, h.zero, fun f => ?_⟩
    rw [mem_remove, h.facets, List.mem_cons, or_assoc]
    constructor
    · rintro ⟨rfl | hf, hne⟩
      · exact absurd rfl hne
      · exact hf
    · intro hf
      refine ⟨.inr hf, ?_⟩
      rintro rfl
      exact hf.elim hnot hnone
  · rename_i hsome
    rw [length_eq_zero_iff, not_not] at hsome
    exact h.settle hsome

theorem addSelector_ok (hfacet : facet ≠ 0) (h : ds.Routing [facet]) (hk : Keeps this ds0 ds)
    (hok : addSelector facet ds selector = .ok ds') :
    (ds'.Routing [facet] ∧ Keeps this ds0 ds') ∧ ds'.HasSelector facet := by
  obtain ⟨-, hok⟩ := ite_error_ok.1 hok
  obtain ⟨hfree, hok⟩ := ite_error_ok.1 hok
  cases hok
  have hfree := not_not.1 hfree
  refine ⟨⟨h.frame ?_ (h.lists.add hfree facet) rfl fun f hf => ?_, ?_⟩, selector, ?_⟩
  · exact fun hmem => hfacet (List.mem_singleton.1 hmem).symm
  · exact update_of_ne (fun heq => hf (List.mem_singleton.2 heq)) _ _
  · refine hk.update (fun hr => hr.1 ?_) rfl
    rw [← hr.2, hfree]
  · show selector ∈ update ds.selectorsByFacet facet _ facet
    rw [update_self, mem_add]
    exact .inr rfl

theorem removeSelector_ok (hfacet : facet ≠ 0) (hthis : facet ≠ this) (h : ds.Routing [facet])
    (hk : Keeps this ds0 ds) (hok : removeSelector facet ds selector = .ok ds') :
    ds'.Routing [facet] ∧ Keeps this ds0 ds' := by
  obtain ⟨-, hok⟩ := ite_error_ok.1 hok
  obtain ⟨hhere, hok⟩ := ite_error_ok.1 hok
  cases hok
  have hhere := not_not.1 hhere
  have hlists := h.lists.remove selector
  rw [hhere] at hlists
  refine ⟨h.frame ?_ hlists rfl fun f hf => ?_, ?_⟩
  · exact fun hmem => hfacet (List.mem_singleton.1 hmem).symm
  · exact update_of_ne (fun heq => hf (List.mem_singleton.2 heq)) _ _
  · refine hk.update (fun hr => hthis ?_) rfl
    rw [← hhere, hr.2]

theorem replaceSelector_ok (hfacet : facet ≠ 0) (h : ds.Routing [facet]) (hk : Keeps this ds0 ds)
    (hok : replaceSelector this facet ds selector = .ok ds') :
    (ds'.Routing [facet] ∧ Keeps this ds0 ds') ∧ ds'.HasSelector facet := by
  obtain ⟨-, hok⟩ := ite_error_ok.1 hok
  obtain ⟨hthis, hok⟩ := ite_error_ok.1 hok
  obtain ⟨hzero, hok⟩ := ite_error_ok.1 hok
  obtain ⟨hother, hok⟩ := ite_error_ok.1 hok
  cases hok
  -- the old facet is listed, so it can be pending while the selector moves
  have hlisted : ds.facetBySelector selector ∈ ds.facets :=
    (h.facets _).2 (.inr ⟨selector, h.mem_iff.2 ⟨hzero, rfl⟩⟩)
  refine ⟨⟨dropFacet_routing ((h.pend hlisted).frame ?_ (h.lists.move selector facet) rfl
    fun f hf => ?_) ?_, ?_⟩, selector, ?_⟩
  · rw [List.mem_cons, List.mem_singleton]
    rintro (heq | heq)
    · exact hzero heq.symm
    · exact hfacet heq.symm
  · rw [List.mem_cons, List.mem_singleton, not_or] at hf
    show update (update ds.selectorsByFacet _ _) facet _ f = _
    rw [update_of_ne hf.2, update_of_ne hf.1]
  · exact fun hmem => hother (List.mem_singleton.1 hmem)
  · exact hk.update (fun hr => hthis hr.2) (dropFacet_facetBySelector _ _)
  · rw [dropFacet_selectorsByFacet]
    show selector ∈ update (update ds.selectorsByFacet _ _) facet _ facet
    rw [update_self, mem_add]
    exact .inr rfl

/-! ## One cut -/

def Cuts (this : Address) (ds ds' : DiamondCutLayout) : Prop :=
  ds'.Routing [] ∧ Keeps this ds ds'

theorem keeps_insertFacet (this facet : Address) (ds : DiamondCutLayout) :
    Keeps this ds (insertFacet facet ds) := by
  intro s hs
  unfold RoutedTo insertFacet
  split <;> exact hs

variable (h : ds.Routing [])

include h

theorem addFacet_ok (hfacet : facet ≠ 0) (hselectors : selectors ≠ [])
    (hok : addFacet facet selectors ds = .ok ds') : Cuts this ds ds' := by
  have hloop := foldlM_establishes
    (fun _ _ _ hd => addSelector_ok hfacet hd.1 hd.2) hselectors
    ⟨insertFacet_routing h facet, keeps_insertFacet this facet ds⟩ hok
  exact ⟨hloop.1.1.settle hloop.2, hloop.1.2⟩

theorem replaceFacet_ok (hfacet : facet ≠ 0) (hselectors : selectors ≠ [])
    (hok : replaceFacet this facet selectors ds = .ok ds') : Cuts this ds ds' := by
  obtain ⟨-, hok⟩ := ite_error_ok.1 hok
  have hloop := foldlM_establishes
    (fun _ _ _ hd => replaceSelector_ok hfacet hd.1 hd.2)
    hselectors ⟨insertFacet_routing h facet, keeps_insertFacet this facet ds⟩ hok
  exact ⟨hloop.1.1.settle hloop.2, hloop.1.2⟩

theorem removeFacet_ok (hfacet : facet ≠ 0)
    (hok : removeFacet this facet selectors ds = .ok ds') : Cuts this ds ds' := by
  obtain ⟨hthis, hok⟩ := ite_error_ok.1 hok
  obtain ⟨hmem, hok⟩ := ite_error_ok.1 hok
  obtain ⟨_, hloop, hok⟩ := bind_ok.1 hok
  cases hok
  obtain ⟨hrouting, hkeeps⟩ := foldlM_invariant
    (fun _ _ _ hd => removeSelector_ok hfacet hthis hd.1 hd.2)
    ⟨h.pend (not_not.1 hmem), .refl this ds⟩ hloop
  refine ⟨dropFacet_routing hrouting List.not_mem_nil, fun s hs => ?_⟩
  unfold RoutedTo
  rw [dropFacet_facetBySelector]
  exact hkeeps s hs

theorem cutFacet_ok (hok : cutFacet this codeLength ds facetCut = .ok ds') : Cuts this ds ds' := by
  obtain ⟨hvalid, hok⟩ := guard_ok.1 hok
  obtain ⟨hfacet, hvalid⟩ := ite_error_ok.1 hvalid
  obtain ⟨-, hvalid⟩ := ite_error_ok.1 hvalid
  obtain ⟨hlength, -⟩ := ite_error_ok.1 hvalid
  have hselectors : facetCut.functionSelectors ≠ [] := fun hnil => hlength (by rw [hnil]; rfl)
  split at hok
  · exact addFacet_ok h hfacet hselectors hok
  · exact replaceFacet_ok h hfacet hselectors hok
  · exact removeFacet_ok h hfacet hok

theorem cutFacets_ok
    (hok : cutFacets this codeLength facetCuts ds = .ok ds') : Cuts this ds ds' := by
  obtain ⟨-, hok⟩ := ite_error_ok.1 hok
  refine foldlM_invariant (fun d _ d' hd hstep => ?_) ⟨h, .refl this ds⟩ hok
  have hcut := cutFacet_ok hd.1 hstep
  exact ⟨hcut.1, fun s hs => hcut.2 s (hd.2 s hs)⟩

omit h

end DiamondCutBase

/-! ## Listing -/

namespace DiamondLoupeBase

open DiamondCutLayout

variable {ds : DiamondCutLayout}

theorem mem_listed (h : ds.Routing []) {facet : Address} {selector : Selector} :
    (facet, selector) ∈ listed ds ↔ ds.RoutedTo selector facet := by
  unfold listed facets facetAddresses facetSelectors
  rw [List.flatMap_map, List.mem_flatMap, ← h.mem_iff]
  constructor
  · rintro ⟨f, -, hmem⟩
    obtain ⟨s, hs, heq⟩ := List.mem_map.1 hmem
    cases heq
    exact hs
  · intro hs
    exact ⟨facet, (h.facets facet).2 (.inr ⟨selector, hs⟩), List.mem_map.2 ⟨selector, hs, rfl⟩⟩

theorem listed_nodup (ds : DiamondCutLayout) : (listed ds).Nodup := by
  unfold listed facets facetAddresses facetSelectors
  rw [List.flatMap_map, List.nodup_flatMap]
  refine ⟨fun f _ => ?_, ?_⟩
  · exact (ds.selectorsByFacet f).nodup.map fun _ _ heq => (Prod.mk.inj heq).2
  refine ds.facets.nodup.imp fun {f g} hne => ?_
  -- the facet stands in each pair
  rintro ⟨_, s⟩ hf hg
  obtain ⟨_, -, heq⟩ := List.mem_map.1 hf
  obtain ⟨_, -, heq'⟩ := List.mem_map.1 hg
  exact hne ((Prod.mk.inj heq).1.trans (Prod.mk.inj heq').1.symm)

end DiamondLoupeBase

/-! ## All runs -/

namespace Diamond

open DiamondCutBase DiamondCutLayout

variable {this : Address} {d d' : Diamond}

theorem performCut_ok (hok : performCut this args d = .ok d')
    (h : d.cut.Routing []) : Cuts this d.cut d'.cut := by
  obtain ⟨_, hcut, hok⟩ := bind_ok.1 hok
  have hcuts := cutFacets_ok h hcut
  unfold initializeDiamondCut at hok
  split at hok
  · cases hok
    exact hcuts
  obtain ⟨-, hok⟩ := ite_error_ok.1 hok
  split at hok
  · cases hok
  · cases hok
    exact hcuts

theorem answer_ok (h : d.cut.Routing [])
    (hok : d.answer this message = .ok d') : Cuts this d.cut d'.cut := by
  cases message with
  | constructor args =>
    obtain ⟨-, hok⟩ := ite_error_ok.1 hok
    obtain ⟨d1, hcut, hok⟩ := bind_ok.1 hok
    cases hok
    have hcuts := performCut_ok hcut h
    exact hcuts
  | diamondCut msgSender args =>
    obtain ⟨-, hok⟩ := guard_ok.1 hok
    obtain ⟨_, -, hok⟩ := bind_ok.1 hok
    obtain ⟨-, hok⟩ := ite_error_ok.1 hok
    obtain ⟨d1, hcut, hok⟩ := bind_ok.1 hok
    cases hok
    have hcuts := performCut_ok hcut h
    exact hcuts
  | transferOwnership msgSender newOwner =>
    obtain ⟨-, hok⟩ := guard_ok.1 hok
    obtain ⟨-, hok⟩ := ite_error_ok.1 hok
    cases hok
    exact ⟨h, .refl this d.cut⟩

theorem cuts_next (this : Address) (h : d.cut.Routing []) (message : DiamondMessage) :
    Cuts this d.cut ((diamond this).next d message).cut :=
  Machine.next_ofCall (P := fun d' : Diamond => Cuts this d.cut d'.cut) ⟨h, .refl this d.cut⟩
    fun _ => answer_ok h

theorem cuts_exec (h : d.cut.Routing []) (run : List DiamondMessage) :
    Cuts this d.cut ((diamond this).exec d run).cut := by
  refine Machine.exec_invariant (I := fun d' : Diamond => Cuts this d.cut d'.cut)
    (fun d' message hd => ?_)
    ⟨h, .refl this d.cut⟩ run
  have hnext := cuts_next this hd.1 message
  exact ⟨hnext.1, fun s hs => hnext.2 s (hd.2 s hs)⟩

theorem routing_init : init.cut.Routing [] := by
  refine ⟨lists_empty 0, not_mem_empty, fun f => iff_of_false ?_ ?_⟩
  · exact not_mem_empty f
  · rintro (hmem | ⟨s, hs⟩)
    · exact List.not_mem_nil hmem
    · exact not_mem_empty s hs

end Diamond

open DiamondCutLayout in
/-- **Routing.** After every run of a diamond its selectors stand in the sets of the facets that
    answer them and in no others, the facets are those with a selector, the diamond's own selectors
    stay, and the listing has each selector once, under its facet. -/
theorem diamond_routing (this : Address) (run : List DiamondMessage) :
    let d := (diamond this).exec .init run
    (∀ selector facet, selector ∈ d.cut.selectorsByFacet facet ↔
      facet ≠ 0 ∧ d.cut.facetBySelector selector = facet) ∧
    (∀ facet, facet ∈ d.cut.facets ↔ ∃ selector, selector ∈ d.cut.selectorsByFacet facet) ∧
    (∀ selector, d.cut.RoutedTo selector this → ∀ more,
      ((diamond this).exec d more).cut.RoutedTo selector this) ∧
    ∀ selector facet, (DiamondLoupeBase.listed d.cut).count (facet, selector) =
      if d.cut.RoutedTo selector facet then 1 else 0 := by
  intro d
  have h : d.cut.Routing [] := (Diamond.cuts_exec Diamond.routing_init run).1
  refine ⟨fun selector facet => h.mem_iff, fun facet => ?_, fun selector hs more => ?_,
    fun selector facet => ?_⟩
  · rw [h.facets]
    exact or_iff_right List.not_mem_nil
  · exact (Diamond.cuts_exec h more).2 selector hs
  · rw [(DiamondLoupeBase.listed_nodup d.cut).count]
    exact if_congr (DiamondLoupeBase.mem_listed h) rfl rfl

-- facet 5 loses its selectors to facet 6; selector 3 cannot be taken from the diamond
example :
    let code : Address → Nat := fun _ => 1
    let deploy : CutArgs := ⟨[⟨5, .add, [1, 2]⟩, ⟨9, .add, [3]⟩], 4, code, some 7⟩
    let d := (diamond 9).exec .init
      [.constructor deploy, .diamondCut 7 ⟨[⟨6, .replace, [1, 2]⟩], 0, code, none⟩,
        .diamondCut 7 ⟨[⟨6, .remove, [1]⟩, ⟨6, .replace, [3]⟩], 0, code, none⟩]
    DiamondLoupeBase.listed d.cut = [(6, 1), (6, 2), (9, 3)] := by
  decide

end River.Contracts
