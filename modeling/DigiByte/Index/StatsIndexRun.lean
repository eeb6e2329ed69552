import DigiByte.Index.BranchCounts
import Mathlib.Data.List.Infix

/-!
The statistics index along reorganisations.

Every value of the index is a count of the coins of one block: the members count the
coins of the indexed tip, and the height row of each ancestor those of that ancestor.
A call may be made beside any chainstate, whose active chain may be another branch.
-/

set_option autoImplicit false
set_option relaxedAutoImplicit false

namespace DigiByte.Index

open Consensus DigiDollar SupplyVerification

/-- A supply that is the token total of a branch. -/
def SupplyAt (params : Params) (genesis : StoredBlock) (index : Branch) (state : ℤ × Bool) : Prop :=
  CountsSupply params (branchLookup genesis index) (branchUtxo index) state

/-- A row that counts the coins of a branch. -/
structure RowAt (params : Params) (genesis : StoredBlock) (index : Branch)
    (value : DigiDollarDBVal) :
    Prop where
  supply : SupplyAt params genesis index (value.total_dd_supply, value.supply_known)
  vaults : CountsVaults params (branchLookup genesis index) (branchUtxo index)
    (value.total_collateral, value.vault_count)

/-- The chainstate of a node: a valid chain and the coins of its tip. -/
structure NodeView.Ready (node : NodeView) : Prop where
  valid : ValidBranch node.active
  order : Enumerates node.coins (branchUtxo node.active)

/-- The values of the members. -/
def StatsIndex.values (s : StatsIndex) : DigiDollarDBVal :=
  ⟨s.m_total_dd_supply, s.m_total_collateral, s.m_vault_count, s.m_supply_known⟩

@[simp] theorem StatsIndex.values_restore (s : StatsIndex) (value : DigiDollarDBVal) :
    (s.restore value).values = value :=
  rfl

@[simp] theorem StatsIndex.values_writeHeight (s : StatsIndex) (height hash : ℕ)
    (value : DigiDollarDBVal) : (s.writeHeight height hash value).values = s.values :=
  rfl

/-- The index with the block it has reached. -/
structure Indexed where
  tip : Branch
  index : StatsIndex

/-- A call that fails keeps the index where it is. -/
def Indexed.after (s : Indexed) (tip : Branch) : Option StatsIndex → Indexed
  | none => s
  | some index => ⟨tip, index⟩

inductive IndexStep (params : Params) (genesis : StoredBlock) (s : Indexed) : Indexed → Prop
  | append (node : NodeView) (block : StoredBlock) (ready : node.Ready)
      (valid : ValidBlock (branchUtxo s.tip) (s.tip.length + 1) block) :
      IndexStep params genesis s
        (s.after (block :: s.tip) (customAppend params genesis node (block :: s.tip) s.index))
  | rewind (node : NodeView) (new_tip : Branch) (ready : node.Ready)
      (ancestor : new_tip <:+ s.tip) :
      IndexStep params genesis s
        (s.after new_tip (customRewind params genesis node s.tip new_tip s.index))

inductive IndexRun (params : Params) (genesis : StoredBlock) (start : Indexed) : Indexed → Prop
  | refl : IndexRun params genesis start start
  | step {s s' : Indexed} (before : IndexRun params genesis start s)
      (step : IndexStep params genesis s s') : IndexRun params genesis start s'

/-- The index below the DigiDollar height, as its creation and `CustomAppend` leave it. -/
structure Indexed.Initial (params : Params) (genesis : StoredBlock) (s : Indexed) : Prop where
  valid : ValidBranch s.tip
  below : s.tip.Below params
  values : s.index.values = ⟨0, 0, 0, true⟩
  row : s.index.heightRows s.tip.length = some (s.tip.hash genesis, ⟨0, 0, 0, true⟩)

structure IndexInvariant (params : Params) (genesis : StoredBlock) (s : Indexed) : Prop where
  valid : ValidBranch s.tip
  members : RowAt params genesis s.tip s.index.values
  rows : ∀ index : Branch, index <:+ s.tip → params.DigiDollarHeight ≤ index.length →
    ∃ value, s.index.heightRows index.length = some (index.hash genesis, value) ∧
      RowAt params genesis index value

/-! Common ancestors. -/

private theorem commonAncestor_suffix (pa pb : Branch) :
    commonAncestor pa pb <:+ pa ∧ commonAncestor pa pb <:+ pb := by
  induction pa generalizing pb with
  | nil => simp [commonAncestor]
  | cons a pa ih =>
    cases pb with
    | nil => simp [commonAncestor]
    | cons b pb =>
      unfold commonAncestor
      split_ifs with same
      · rw [same]
        exact ⟨List.suffix_rfl, List.suffix_rfl⟩
      · obtain ⟨left, right⟩ := ih pb
        exact ⟨left.trans (List.suffix_cons a pa), right.trans (List.suffix_cons b pb)⟩

private theorem lastCommonAncestor_suffix (pa pb : Branch) :
    lastCommonAncestor pa pb <:+ pa ∧ lastCommonAncestor pa pb <:+ pb := by
  obtain ⟨left, right⟩ := commonAncestor_suffix (pa.drop (pa.length - pb.length))
    (pb.drop (pb.length - pa.length))
  exact ⟨left.trans (List.drop_suffix _ _), right.trans (List.drop_suffix _ _)⟩

private theorem ValidBranch.parent {block : StoredBlock} {parent : Branch}
    (valid : ValidBranch (block :: parent)) : ValidBranch parent := by
  cases valid with
  | extend before _ => exact before

private theorem ValidBranch.suffix {index ancestor : Branch} (valid : ValidBranch index)
    (suffix : ancestor <:+ index) : ValidBranch ancestor := by
  induction valid with
  | genesis =>
    rw [List.suffix_nil.mp suffix]
    exact .genesis
  | extend before connects ih =>
    rcases List.suffix_cons_iff.mp suffix with rfl | deeper
    · exact .extend before connects
    · exact ih deeper

section Steps

variable {params : Params} {genesis : StoredBlock} (nonneg : 0 ≤ params.DigiDollarHeight)
  (bounded : params.DigiDollarHeight ≤ INT_MAX)

include nonneg bounded

/-! Values below the DigiDollar height. -/

private theorem rowAt_below {index : Branch} {value : DigiDollarDBVal} (valid : ValidBranch index)
    (below : index.Below params) :
    RowAt params genesis index value ↔
      value.total_collateral = 0 ∧ value.vault_count = 0 ∧
        (value.supply_known = true → value.total_dd_supply = 0) := by
  obtain ⟨readable, tokens, totals⟩ := @counts_below genesis index params nonneg bounded valid below
  have room : (0 : ℤ) ≤ MAX_MONEY ∧ (0 : ℤ) ≤ INT64_MAX := by decide
  constructor
  · rintro ⟨supply, vaults, _⟩
    rw [totals] at vaults
    refine ⟨congrArg Prod.fst vaults, congrArg Prod.snd vaults, ?_⟩
    intro known
    exact (supply known).2.1.trans tokens
  · rintro ⟨collateral, count, supply⟩
    refine ⟨?_, ?_, ?_⟩
    · intro known
      have zero := supply known
      exact ⟨readable, zero.trans tokens.symm, by dsimp only; omega⟩
    · rw [totals, collateral, count]
      rfl
    · dsimp only
      omega

private theorem supplyAt_below {index : Branch} {supply : ℤ} (valid : ValidBranch index)
    (below : index.Below params) : SupplyAt params genesis index (supply, true) ↔ supply = 0 := by
  obtain ⟨readable, tokens, _⟩ := @counts_below genesis index params nonneg bounded valid below
  have room : (0 : ℤ) ≤ INT64_MAX := by decide
  constructor
  · intro counts
    exact (counts rfl).2.1.trans tokens
  · rintro rfl _
    exact ⟨readable, tokens.symm, room⟩

omit nonneg bounded in
private theorem Branch.Below.parent {block : StoredBlock} {parent : Branch}
    (below : Branch.Below params (block :: parent)) : Branch.Below params parent := by
  simp only [Branch.Below, List.length_cons] at below ⊢
  omega

/-! Moving a supply. -/

omit nonneg bounded in
private theorem applyBlock_known {block : StoredBlock} {parent : Branch} {undo known : Bool}
    {supply next : ℤ} (late : ¬ Branch.Below params (block :: parent))
    (applied : applyBlock params genesis (block :: parent) undo (supply, known) =
      some (next, true)) :
    ∃ change, changeLoop params (branchLookup genesis (block :: parent)) (parent.length + 1)
        (block.vtx.tail.zip block.vtxundo) (0, known) = some (change, true) ∧
      next = supply + (if undo then -change else change) ∧ next ≤ INT64_MAX := by
  simp only [applyBlock, if_neg late] at applied
  by_cases incomplete : block.vtxundo.length + 1 ≠ block.vtx.length
  · rw [if_pos incomplete] at applied
    cases applied
  · rw [if_neg incomplete] at applied
    cases loop : changeLoop params (branchLookup genesis (block :: parent)) (parent.length + 1)
        (block.vtx.tail.zip block.vtxundo) (0, known) with
    | none => simp [loop] at applied
    | some result =>
      obtain ⟨change, flag⟩ := result
      simp only [loop] at applied
      cases flag with
      | false => simp at applied
      | true =>
        refine ⟨change, rfl, ?_⟩
        generalize (if undo = true then -change else change) = signed at applied ⊢
        simp only [Bool.true_eq_false, if_false] at applied
        split_ifs at applied with range
        cases applied
        exact ⟨rfl, by omega⟩

private theorem supplyAt_applyBlock {block : StoredBlock} {parent : Branch} {undo : Bool}
    {state next : ℤ × Bool} (valid : ValidBranch (block :: parent))
    (applied : applyBlock params genesis (block :: parent) undo state = some next)
    (counts : SupplyAt params genesis (if undo then block :: parent else parent) state) :
    SupplyAt params genesis (if undo then parent else block :: parent) next := by
  obtain ⟨supply, known⟩ := state
  obtain ⟨supply', known'⟩ := next
  intro isKnown
  dsimp only at isKnown
  subst isKnown
  by_cases below : Branch.Below params (block :: parent)
  · simp only [applyBlock, if_pos below] at applied
    cases applied
    have here := @supplyAt_below params genesis nonneg bounded _ supply valid below
    have there := @supplyAt_below params genesis nonneg bounded _ supply valid.parent below.parent
    cases undo with
    | false => exact here.mpr (there.mp counts) rfl
    | true => exact there.mpr (here.mp counts) rfl
  · obtain ⟨change, loop, moved, small⟩ := applyBlock_known below applied
    obtain ⟨utxo, spends, reached, recorded, same, _⟩ :=
      @validBranch_block genesis block parent params valid
    obtain ⟨rfl, readable, tokens⟩ := changeLoop_known recorded spends loop
    rw [← reached] at readable tokens
    cases undo with
    | false =>
      obtain ⟨all, exactly, _⟩ := (same _).mpr counts rfl
      refine ⟨readable.mpr all, ?_, small⟩
      simp only [Bool.false_eq_true, if_false] at moved exactly ⊢
      omega
    | true =>
      obtain ⟨all, exactly, _⟩ := counts rfl
      refine (same _).mp (fun _ => ⟨readable.mp all, ?_, small⟩) rfl
      simp only [if_true] at moved exactly ⊢
      omega

private theorem supplyAt_undoBlocks {fork index : Branch} {state next : ℤ × Bool}
    (valid : ValidBranch index) (ancestor : fork <:+ index)
    (undone : undoBlocks params genesis fork index state = some next)
    (counts : SupplyAt params genesis index state) : SupplyAt params genesis fork next := by
  induction index generalizing state with
  | nil =>
    rw [List.suffix_nil.mp ancestor]
    cases undone
    exact counts
  | cons block parent ih =>
    unfold undoBlocks at undone
    split_ifs at undone with arrived
    · cases undone
      rw [← arrived]
      exact counts
    · have deeper := (List.suffix_cons_iff.mp ancestor).resolve_left fun same => arrived same.symm
      obtain ⟨between, first, later⟩ := Option.bind_eq_some_iff.mp undone
      have moved :=
        @supplyAt_applyBlock params genesis nonneg bounded _ _ true _ _ valid first counts
      exact ih valid.parent deeper later moved

private theorem supplyAt_applyBlocks {fork index : Branch} {state next : ℤ × Bool}
    (valid : ValidBranch index) (ancestor : fork <:+ index)
    (applied : applyBlocks params genesis fork index state = some next)
    (counts : SupplyAt params genesis fork state) : SupplyAt params genesis index next := by
  induction index generalizing next with
  | nil =>
    rw [List.suffix_nil.mp ancestor] at counts
    cases applied
    exact counts
  | cons block parent ih =>
    unfold applyBlocks at applied
    split_ifs at applied with arrived
    · cases applied
      rw [arrived]
      exact counts
    · have deeper := (List.suffix_cons_iff.mp ancestor).resolve_left fun same => arrived same.symm
      obtain ⟨between, before, last⟩ := Option.bind_eq_some_iff.mp applied
      exact @supplyAt_applyBlock params genesis nonneg bounded _ _ false _ _ valid last
        (ih valid.parent deeper before)

private theorem supplyAt_move {source target : Branch} {state next : ℤ × Bool}
    (fromValid : ValidBranch source) (toValid : ValidBranch target)
    (moved : move params genesis source target state = some next)
    (counts : SupplyAt params genesis source state) : SupplyAt params genesis target next := by
  obtain ⟨left, right⟩ := lastCommonAncestor_suffix source target
  obtain ⟨between, undone, applied⟩ := Option.bind_eq_some_iff.mp moved
  exact supplyAt_applyBlocks nonneg bounded toValid right applied
    (supplyAt_undoBlocks nonneg bounded fromValid left undone counts)

private theorem supplyAt_supplyAt {node : NodeView} {target : Branch} {supply : ℤ} {next : ℤ × Bool}
    (ready : node.Ready) (valid : ValidBranch target)
    (found : supplyAt params genesis node target supply = some next) :
    SupplyAt params genesis target next := by
  unfold supplyAt at found
  split_ifs at found with below mismatch
  · cases found
    exact (supplyAt_below nonneg bounded valid below).mpr rfl
  · split at found
    · cases found
    · rename_i rebuilt counted reconstructed
      refine supplyAt_move nonneg bounded ready.valid valid found ?_
      intro known
      obtain ⟨amount, rfl⟩ := Option.isSome_iff_exists.mp known
      exact (reconstructSupply_eq_some ready.order reconstructed).2 amount rfl

/-! Appending. -/

omit nonneg bounded in
private theorem customAppend_eq_some {node : NodeView} {block : StoredBlock} {parent : Branch}
    {s s' : StatsIndex} (late : ¬ Branch.Below params (block :: parent))
    (appended : customAppend params genesis node (block :: parent) s = some s') :
    ∃ supply verified value,
      verifyParent params genesis node parent s = some (supply, verified) ∧
      appendTxs params (branchLookup genesis (block :: parent)) (parent.length + 1)
          (block.vtx.tail.zip block.vtxundo) (supply, s.m_total_collateral, s.m_vault_count) =
        some ((value.total_dd_supply, value.supply_known), value.total_collateral,
          value.vault_count) ∧
      s'.values = value ∧
      s'.heightRows = Function.update s.heightRows (parent.length + 1)
        (some (block.hash, value)) := by
  simp only [customAppend, if_neg late] at appended
  split_ifs at appended with incomplete
  split at appended
  · cases appended
  · rename_i supply verified verify
    split at appended
    · cases appended
    · rename_i total known collateral vaults loop
      cases appended
      exact ⟨supply, verified, ⟨total, collateral, vaults, known⟩, verify, loop, rfl, rfl⟩

private theorem supplyAt_verifyParent {node : NodeView} {parent : Branch} {s : StatsIndex}
    {supply : ℤ × Bool} {verified : Bool} (ready : node.Ready) (valid : ValidBranch parent)
    (members : SupplyAt params genesis parent (s.m_total_dd_supply, s.m_supply_known))
    (verify : verifyParent params genesis node parent s = some (supply, verified)) :
    SupplyAt params genesis parent supply := by
  unfold verifyParent at verify
  split_ifs at verify with check
  · split at verify
    · cases verify
    · rename_i found known counted
      cases verify
      intro isKnown
      dsimp only at isKnown
      subst isKnown
      exact supplyAt_supplyAt nonneg bounded ready valid counted rfl
  · cases verify
    exact members

private theorem rowAt_append {node : NodeView} {block : StoredBlock} {parent : Branch}
    {s s' : StatsIndex} (ready : node.Ready) (valid : ValidBranch (block :: parent))
    (range : ((parent.length + 1 : ℕ) : ℤ) < INT_MAX)
    (members : RowAt params genesis parent s.values)
    (late : ¬ Branch.Below params (block :: parent))
    (appended : customAppend params genesis node (block :: parent) s = some s') :
    RowAt params genesis (block :: parent) s'.values := by
  obtain ⟨supply, verified, value, verify, loop, rfl, _⟩ := customAppend_eq_some late appended
  have started := supplyAt_verifyParent nonneg bounded ready valid.parent members.supply verify
  obtain ⟨utxo, spends, reached, recorded, sameSupply, sameVaults⟩ :=
    @validBranch_block genesis block parent params valid
  simp only [Branch.Below, List.length_cons, not_or, not_lt] at late
  have scheduled : params.DigiDollarHeight ≠ INT_MAX := by omega
  have height : toUint32 params.DigiDollarHeight ≤ parent.length + 1 := by
    unfold toUint32
    omega
  obtain ⟨counted, vaults⟩ := counts_appendTxs recorded spends scheduled height loop
    ((sameSupply _).mpr started) ((sameVaults _).mpr members.vaults)
  rw [← reached] at counted vaults
  exact ⟨counted, vaults⟩

private theorem invariant_append {s : Indexed} {node : NodeView} {block : StoredBlock}
    {index' : StatsIndex} (invariant : IndexInvariant params genesis s) (ready : node.Ready)
    (valid : ValidBlock (branchUtxo s.tip) (s.tip.length + 1) block)
    (appended : customAppend params genesis node (block :: s.tip) s.index = some index') :
    IndexInvariant params genesis ⟨block :: s.tip, index'⟩ := by
  have extended : ValidBranch (block :: s.tip) := .extend invariant.valid valid
  by_cases below : Branch.Below params (block :: s.tip)
  · have early : ((s.tip.length + 1 : ℕ) : ℤ) < params.DigiDollarHeight := by
      simpa [Branch.Below] using below
    simp only [customAppend, if_pos below, Option.some.injEq] at appended
    subst appended
    refine ⟨extended, ?_, ?_⟩
    · rw [rowAt_below nonneg bounded extended below]
      exact (rowAt_below nonneg bounded invariant.valid below.parent).mp invariant.members
    · intro index suffix reached
      have short := suffix.length_le
      rw [List.length_cons] at short
      omega
  · have members := rowAt_append nonneg bounded ready extended valid.range invariant.members below
      appended
    obtain ⟨_, _, value, _, _, values, rows⟩ := customAppend_eq_some below appended
    refine ⟨extended, members, ?_⟩
    intro index suffix reached
    rcases List.suffix_cons_iff.mp suffix with rfl | older
    · refine ⟨value, ?_, values ▸ members⟩
      simp [rows, Branch.hash]
    · obtain ⟨held, row, counts⟩ := invariant.rows index older reached
      have short := older.length_le
      refine ⟨held, ?_, counts⟩
      rw [← row, rows, Function.update_of_ne (by omega)]

/-! Rewinding. -/

private theorem newTipState_eq_some {s : Indexed} {new_tip : Branch} {hash : ℕ}
    {value : DigiDollarDBVal} (invariant : IndexInvariant params genesis s)
    (ancestor : new_tip <:+ s.tip)
    (loaded : newTipState params genesis new_tip s.index = some (hash, value)) :
    hash = new_tip.hash genesis ∧ RowAt params genesis new_tip value := by
  have valid := invariant.valid.suffix ancestor
  unfold newTipState at loaded
  by_cases early : (new_tip.length : ℤ) < params.DigiDollarHeight
  · simp only [early, if_true, Option.bind_some, ne_eq, not_true_eq_false, if_false] at loaded
    cases loaded
    exact ⟨rfl, (rowAt_below nonneg bounded valid (.inr early)).mpr ⟨rfl, rfl, fun _ => rfl⟩⟩
  · obtain ⟨held, row, counts⟩ := invariant.rows new_tip ancestor (by omega)
    simp only [early, if_false, row, Option.bind_some, ne_eq, not_true_eq_false] at loaded
    cases loaded
    exact ⟨rfl, counts⟩

private theorem customRewind_eq_some {s : Indexed} {node : NodeView} {new_tip : Branch}
    {index' : StatsIndex} (invariant : IndexInvariant params genesis s) (ready : node.Ready)
    (ancestor : new_tip <:+ s.tip)
    (rewound : customRewind params genesis node s.tip new_tip s.index = some index') :
    RowAt params genesis new_tip index'.values ∧
      (index'.heightRows = s.index.heightRows ∨
        index'.heightRows = Function.update s.index.heightRows new_tip.length
          (some (new_tip.hash genesis, index'.values))) := by
  have valid := invariant.valid.suffix ancestor
  unfold customRewind at rewound
  dsimp only at rewound
  split at rewound
  · cases rewound
  · split at rewound
    · cases rewound
    · rename_i hash value loaded
      obtain ⟨rfl, counts⟩ := newTipState_eq_some nonneg bounded invariant ancestor loaded
      by_cases checked : s.index.m_supply_verified = true
      · rw [if_pos checked] at rewound
        split at rewound
        · cases rewound
        · rename_i verified known moved
          rw [if_pos rfl] at rewound
          cases rewound
          have supply : SupplyAt params genesis new_tip (verified, known) := by
            split_ifs at moved with isKnown
            · exact supplyAt_move nonneg bounded invariant.valid valid moved
                invariant.members.supply
            · exact supplyAt_supplyAt nonneg bounded ready valid moved
          refine ⟨⟨?_, counts.vaults⟩, .inr rfl⟩
          intro flag
          simp only [StatsIndex.values_writeHeight, StatsIndex.values_restore] at flag ⊢
          subst flag
          exact supply rfl
      · rw [if_neg checked] at rewound
        cases rewound
        exact ⟨counts, .inl rfl⟩

private theorem invariant_rewind {s : Indexed} {node : NodeView} {new_tip : Branch}
    {index' : StatsIndex} (invariant : IndexInvariant params genesis s) (ready : node.Ready)
    (ancestor : new_tip <:+ s.tip)
    (rewound : customRewind params genesis node s.tip new_tip s.index = some index') :
    IndexInvariant params genesis ⟨new_tip, index'⟩ := by
  obtain ⟨members, rows⟩ := customRewind_eq_some nonneg bounded invariant ready ancestor rewound
  refine ⟨invariant.valid.suffix ancestor, members, ?_⟩
  intro index suffix reached
  obtain ⟨held, row, counts⟩ := invariant.rows index (suffix.trans ancestor) reached
  rcases rows with same | written
  · exact ⟨held, by rw [← row]; exact congrFun same _, counts⟩
  · by_cases here : index.length = new_tip.length
    · obtain rfl := suffix.eq_of_length here
      exact ⟨index'.values, by simp [written], members⟩
    · refine ⟨held, ?_, counts⟩
      rw [← row]
      simp only [written]
      exact Function.update_of_ne here _ _

/-! Runs. -/

private theorem invariant_step {s s' : Indexed} (invariant : IndexInvariant params genesis s)
    (step : IndexStep params genesis s s') : IndexInvariant params genesis s' := by
  cases step with
  | append node block ready valid =>
    cases appended : customAppend params genesis node (block :: s.tip) s.index with
    | none => exact invariant
    | some index' => exact invariant_append nonneg bounded invariant ready valid appended
  | rewind node new_tip ready ancestor =>
    cases rewound : customRewind params genesis node s.tip new_tip s.index with
    | none => exact invariant
    | some index' => exact invariant_rewind nonneg bounded invariant ready ancestor rewound

private theorem invariant_initial {s : Indexed} (initial : s.Initial params genesis) :
    IndexInvariant params genesis s := by
  have zero : RowAt params genesis s.tip ⟨0, 0, 0, true⟩ :=
    (rowAt_below nonneg bounded initial.valid initial.below).mpr ⟨rfl, rfl, fun _ => rfl⟩
  refine ⟨initial.valid, initial.values ▸ zero, ?_⟩
  intro index suffix reached
  have short := suffix.length_le
  -- only genesis can be both at the DigiDollar height and below it
  have last : index.length = s.tip.length := by
    rcases initial.below with genesis | early <;> omega
  obtain rfl := suffix.eq_of_length last
  exact ⟨_, initial.row, zero⟩

private theorem invariant_run {start s : Indexed} (initial : start.Initial params genesis)
    (run : IndexRun params genesis start s) : IndexInvariant params genesis s := by
  induction run with
  | refl => exact invariant_initial nonneg bounded initial
  | step _ step ih => exact invariant_step nonneg bounded ih step

end Steps

/-- Along every run of appends and rewinds the members are what a rebuild over the coins
of the indexed tip computes: the collateral and the number of the vaults and, while the
supply is known, the supply. The rebuild succeeds at a known supply where its totals are
valid. -/
theorem stats_index_matches_reconstruction {params : Params} {genesis : StoredBlock}
    (nonneg : 0 ≤ params.DigiDollarHeight) (bounded : params.DigiDollarHeight ≤ INT_MAX)
    {start s : Indexed} (initial : start.Initial params genesis)
    (run : IndexRun params genesis start s) {coins : List (COutPoint × Coin)} {best_block : ℕ}
    (order : Enumerates coins (branchUtxo s.tip)) :
    (∀ rebuilt supply,
      reconstructSupply coins best_block params (branchLookup genesis s.tip) =
        some (rebuilt, supply) →
      s.index.m_total_collateral = rebuilt.collateral ∧
      s.index.m_vault_count = rebuilt.active_vaults ∧
      (s.index.m_supply_known = true → supply = some s.index.m_total_dd_supply)) ∧
    (∀ rebuilt, reconstructChainstateHealth coins best_block params (branchLookup genesis s.tip) =
        some rebuilt → s.index.m_supply_known = true →
      reconstructSupply coins best_block params (branchLookup genesis s.tip) =
        some (rebuilt, some s.index.m_total_dd_supply)) := by
  obtain ⟨valid, ⟨supplyCounts, vaultCounts, _⟩, _⟩ := invariant_run nonneg bounded initial run
  have returns : ∀ rebuilt, reconstructChainstateHealth coins best_block params
      (branchLookup genesis s.tip) = some rebuilt → s.index.m_supply_known = true →
      reconstructSupply coins best_block params (branchLookup genesis s.tip) =
        some (rebuilt, some s.index.m_total_dd_supply) := by
    intro rebuilt vaults known
    obtain ⟨readable, exactly, small⟩ := supplyCounts known
    have counted := reconstructSupply_known order vaults readable (exactly ▸ small)
    rwa [← exactly] at counted
  refine ⟨?_, returns⟩
  intro rebuilt supply found
  have vaults := (reconstructSupply_eq_some order found).1
  have totals := vaults
  rw [reconstructChainstateHealth_eq (creatorsKnown_branch valid) order] at totals
  dsimp only at totals
  split_ifs at totals with fits
  cases totals
  refine ⟨congrArg Prod.fst vaultCounts, congrArg Prod.snd vaultCounts, ?_⟩
  intro known
  rw [returns _ vaults known] at found
  cases found
  rfl

namespace Sample

open DigiDollar.Sample (params coinbase mint p2tr)

def genesisBlock : StoredBlock := ⟨40, [], []⟩
def fundingCoin : Coin := ⟨⟨200000000000, []⟩, true, 1⟩
def fundingBlock : StoredBlock := ⟨41, [coinbase], []⟩
def reward : CTransaction := { coinbase with hash := 3 }
def mintBlock : StoredBlock := ⟨42, [reward, mint], [[fundingCoin]]⟩

/-- DigiDollar starts at the block that holds the mint. -/
def early : Params := { params.consensus with DigiDollarHeight := 2 }

def start : Indexed :=
  ⟨[fundingBlock],
    { m_total_dd_supply := 0
      m_supply_known := true
      m_supply_verified := true
      m_total_collateral := 0
      m_vault_count := 0
      heightRows := fun height => if height = 1 then some (41, ⟨0, 0, 0, true⟩) else none
      hashRows := fun _ => none }⟩

def view : NodeView := ⟨[fundingBlock], [(⟨1, 0⟩, fundingCoin)], 41⟩

def append (s : Indexed) : Indexed :=
  s.after (mintBlock :: s.tip) (customAppend early genesisBlock view (mintBlock :: s.tip) s.index)

def rewind (s : Indexed) : Indexed :=
  s.after [fundingBlock] (customRewind early genesisBlock view s.tip [fundingBlock] s.index)

/-- The coins of the chain with the mint. -/
def mintedCoins : List (COutPoint × Coin) :=
  [(⟨2, 0⟩, ⟨⟨100000000000, p2tr 7⟩, false, 2⟩), (⟨2, 1⟩, ⟨⟨0, p2tr 8⟩, false, 2⟩),
    (⟨3, 0⟩, ⟨⟨200000000000, []⟩, true, 2⟩)]

private theorem funding_valid : ValidBlock ∅ 1 fundingBlock where
  range := by decide
  ids := by decide
  complete := by decide
  coinbase := ⟨coinbase, [], rfl, by decide, by simp, .nil⟩

private theorem branch_valid : ValidBranch [fundingBlock] := .extend .genesis funding_valid

private theorem mint_valid : ValidBlock (branchUtxo [fundingBlock]) 2 mintBlock where
  range := by decide
  ids := by decide
  complete := by decide
  coinbase := by
    have apart (hash n : ℕ) (other : hash ≠ 1) : (⟨hash, n⟩ : COutPoint) ≠ ⟨1, 0⟩ := by simp [other]
    refine ⟨reward, [mint], rfl, by decide, ?_, ?_⟩
    · intro n
      change ((∅ : UtxoSet).insert ⟨1, 0⟩ _).lookup ⟨3, n⟩ = none
      rw [Finmap.lookup_insert_of_ne _ (apart 3 n (by decide)), Finmap.lookup_empty]
    · have undo : spentCoins (connect (branchUtxo [fundingBlock]) reward 2) mint =
          [fundingCoin] := by
        decide +kernel
      change Spends 2 _ [(mint, [fundingCoin])]
      rw [← undo]
      refine .cons (by decide) ?_ (by decide +kernel) (by decide) .nil
      intro n
      change (((∅ : UtxoSet).insert ⟨1, 0⟩ _).insert ⟨3, 0⟩ _).lookup ⟨2, n⟩ = none
      rw [Finmap.lookup_insert_of_ne _ (by simp),
        Finmap.lookup_insert_of_ne _ (apart 2 n (by decide)), Finmap.lookup_empty]

private theorem view_ready : view.Ready where
  valid := branch_valid
  order := by
    unfold Enumerates
    decide +kernel

/-- The mint is indexed, taken back and indexed again; a rebuild then finds the supply
that the index has. -/
theorem reindexed_mint_matches :
    (append (rewind (append start))).index.values = ⟨10000, 100000000000, 1, true⟩ ∧
    (rewind (append start)).index.values = ⟨0, 0, 0, true⟩ ∧
    reconstructSupply mintedCoins 42 early (branchLookup genesisBlock [mintBlock, fundingBlock]) =
      some ((emptyRecord early 42).withTotals (10000, 100000000000, 1), some 10000) := by
  have initial : start.Initial early genesisBlock := ⟨branch_valid, by decide, rfl, rfl⟩
  have run : IndexRun early genesisBlock start (append (rewind (append start))) :=
    .step (.step (.step .refl (.append view mintBlock view_ready mint_valid))
      (.rewind view [fundingBlock] view_ready (by decide +kernel)))
      (.append view mintBlock view_ready mint_valid)
  have order : Enumerates mintedCoins (branchUtxo (append (rewind (append start))).tip) := by
    unfold Enumerates
    decide +kernel
  have vaults : reconstructChainstateHealth mintedCoins 42 early
      (branchLookup genesisBlock [mintBlock, fundingBlock]) =
      some ((emptyRecord early 42).withTotals (10000, 100000000000, 1)) := by
    decide +kernel
  refine ⟨by decide +kernel, by decide +kernel, ?_⟩
  exact (stats_index_matches_reconstruction (by decide) (by decide) initial run order).2 _ vaults
    (by decide +kernel)

end Sample

end DigiByte.Index
