import Mathlib.Algebra.BigOperators.Ring.List
import Mathlib.Algebra.Order.BigOperators.Group.List
import MediaModules.Lib.Cuts
import MediaModules.Lib.Words

/-!
# The tiles of a picture

The columns and rows of tiles are even parts of the picture, or have the sizes of the parameter set, the
last one what is left. The sizes of the rows are eight words of the parameters; what is read for later
rows are the words behind them.
-/
namespace MediaModules.Hevc

open Lib.Words Lib.Cuts

def MAX_TILE_COL_NUM : Int := 10
def MAX_TILE_ROW_NUM : Int := 20

/-- What `param_u` has of the tiles, and the words from `misc_flag0` on. -/
structure TileParams where
  tilesEnabledFlag : UInt16
  numTileColumnsMinus1 : UInt16
  numTileRowsMinus1 : UInt16
  tileWidth : Fin 12 → UInt16
  tileHeight : Fin 8 → UInt16
  behind : Nat → UInt16

/-- `struct tile_s`. -/
structure Tile where
  width : Int
  height : Int
  startCuX : Int
  startCuY : Int
deriving DecidableEq, Repr

/-- What `update_tile_info` writes: the tiles, a list for each row, and the CTUs up to the end of each. -/
structure TileInfo where
  tileEnabled : Bool
  mTile : List (List Tile)
  tileLcu : List Int

namespace TileParams

variable (p : TileParams)

def enabled : Bool := p.tilesEnabledFlag &&& 1 ≠ 0
def uniform : Bool := p.tilesEnabledFlag &&& 2 ≠ 0

def numTileCol : Nat :=
  let num := (p.numTileColumnsMinus1.toNat : Int) + 1
  if num > MAX_TILE_COL_NUM ∨ num ≤ 0 then 1 else num.toNat

def numTileRow : Nat :=
  let num := (p.numTileRowsMinus1.toNat : Int) + 1
  if num > MAX_TILE_ROW_NUM ∨ num ≤ 0 then 1 else num.toNat

/-- `tile_width[j]`; there are no more than ten columns. -/
def tileWidthAt (j : Nat) : Int := (p.tileWidth (Fin.ofNat 12 j)).toNat

/-- `tile_height[i]`; there are up to twenty rows. -/
def tileHeightAt (i : Nat) : Int :=
  if h : i < 8 then (p.tileHeight ⟨i, h⟩).toNat else (p.behind (i - 8)).toNat

end TileParams

/-- The width of a column, or the height of a row. -/
def tileExtent (uniform : Bool) (size : Int) (num : Nat) (explicit : Int) (i : Nat) (start : Int) : Int :=
  if uniform then (s32 ((i + 1) * size)).tdiv num - (s32 (i * size)).tdiv num
  else if i = num - 1 then size - start
  else explicit

/-- The inner loop: the columns of a row that are left, from one on. -/
def tileColumns (p : TileParams) (picWidthCu picHeightCu : Int) (i : Nat) (startCuY : Int) :
    Nat → Nat → Int → List Tile
  | 0, _, _ => []
  | left + 1, j, startCuX =>
    let tile : Tile :=
      { width := tileExtent p.uniform picWidthCu p.numTileCol (p.tileWidthAt j) j startCuX
        height := tileExtent p.uniform picHeightCu p.numTileRow (p.tileHeightAt i) i startCuY
        startCuX := startCuX
        startCuY := startCuY }
    tile :: tileColumns p picWidthCu picHeightCu i startCuY left (j + 1) (startCuX + tile.width)

/-- The outer loop: the rows that are left; the next one starts below the first tile of this one. -/
def tileRows (p : TileParams) (picWidthCu picHeightCu : Int) : Nat → Nat → Int → List (List Tile)
  | 0, _, _ => []
  | left + 1, i, startCuY =>
    let row := tileColumns p picWidthCu picHeightCu i startCuY p.numTileCol 0 0
    row :: tileRows p picWidthCu picHeightCu left (i + 1)
      (startCuY + (row.head?.map Tile.height).getD 0)

/-- The loop over `tile_lcu`. -/
def tileLcus : Int → List Tile → List Int
  | _, [] => []
  | before, tile :: tiles =>
    let lcu := u32 (before + tile.width * tile.height)
    lcu :: tileLcus lcu tiles

/-- `update_tile_info`, less the addresses of the buffers. -/
def updateTileInfo (p : TileParams) (picWidthCu picHeightCu : Int) : TileInfo :=
  let mTile :=
    if p.enabled then tileRows p picWidthCu picHeightCu p.numTileRow 0 0
    else [[{ width := picWidthCu, height := picHeightCu, startCuX := 0, startCuY := 0 }]]
  { tileEnabled := p.enabled, mTile := mTile, tileLcu := tileLcus 0 mTile.flatten }

/-- `get_tile_index`. -/
def getTileIndex (t : TileInfo) (cuAdr picWidthLcu : Int) : Int :=
  if picWidthLcu = 0 then -1
  else
    let cuX := cuAdr.tmod picWidthLcu
    let cuY := cuAdr.tdiv picWidthLcu
    let tileX := if t.tileEnabled then
      lastStart cuX ((t.mTile.headD []).map Tile.startCuX) 0 0 else 0
    let tileY := if t.tileEnabled then
      lastStart cuY (t.mTile.map fun row => (row.head?.map Tile.startCuY).getD 0) 0 0 else 0
    ((tileX ||| (tileY <<< 8) : Nat) : Int)

/-- The CTU is in the tile. -/
def Tile.Contains (tile : Tile) (x y : Int) : Prop :=
  (tile.startCuX ≤ x ∧ x < tile.startCuX + tile.width) ∧
    tile.startCuY ≤ y ∧ y < tile.startCuY + tile.height

/-- The tile of a row and a column. -/
def TileInfo.tile? (t : TileInfo) (i j : Nat) : Option Tile := t.mTile[i]?.bind fun row => row[j]?

/-- The tiles are a partition of the picture, the counts ascend to the number of CTUs, and the index of
every CTU, taken apart as it is used, is the row and the column of the tile that contains it. -/
structure Tiled (t : TileInfo) (picWidthCu picHeightCu : Int) : Prop where
  nonempty : ∀ i j, ∀ tile ∈ t.tile? i j, 0 < tile.width ∧ 0 < tile.height
  inside : ∀ i j, ∀ tile ∈ t.tile? i j, ∀ x y, tile.Contains x y →
    (0 ≤ x ∧ x < picWidthCu) ∧ 0 ≤ y ∧ y < picHeightCu
  covered : ∀ x y, 0 ≤ x → x < picWidthCu → 0 ≤ y → y < picHeightCu →
    ∃! place : Nat × Nat, ∃ tile ∈ t.tile? place.1 place.2, tile.Contains x y
  ascending : t.tileLcu.Pairwise (· < ·)
  whole : t.tileLcu.getLast? = some (picWidthCu * picHeightCu)
  index : ∀ adr, 0 ≤ adr → adr < picWidthCu * picHeightCu → ∃ index : Nat,
    getTileIndex t adr picWidthCu = index ∧
      ∃ tile ∈ t.tile? ((index >>> 8) &&& 0xff) (index &&& 0xff),
        tile.Contains (adr % picWidthCu) (adr / picWidthCu)

/-- The tiles of the parameters fit: there are no more of them than CTUs, or the sizes that are given
leave something for the last one. -/
structure TilesFit (p : TileParams) (picWidthCu picHeightCu : Int) : Prop where
  even : p.enabled = true → p.uniform = true →
    (p.numTileCol : Int) ≤ picWidthCu ∧ (p.numTileRow : Int) ≤ picHeightCu
  widths : p.enabled = true → p.uniform = false → (∀ j < p.numTileCol - 1, 0 < p.tileWidthAt j) ∧
    ((List.range (p.numTileCol - 1)).map p.tileWidthAt).sum < picWidthCu
  heights : p.enabled = true → p.uniform = false →
    (∀ i < min (p.numTileRow - 1) 8, 0 < p.tileHeightAt i) ∧
      ((List.range (min (p.numTileRow - 1) 8)).map p.tileHeightAt).sum < picHeightCu

/-- The words that are read for the rows behind the eighth are sizes that leave something too. -/
def RowsGiven (p : TileParams) (picHeightCu : Int) : Prop :=
  p.enabled = true → p.uniform = false → (∀ i < p.numTileRow - 1, 0 < p.tileHeightAt i) ∧
    ((List.range (p.numTileRow - 1)).map p.tileHeightAt).sum < picHeightCu

/-! ## The grid -/

/-- The tile between the cuts of a row and those of a column. -/
def gridTile (cx cy : Nat → Int) (i j : Nat) : Tile :=
  { width := cx (j + 1) - cx j, height := cy (i + 1) - cy i, startCuX := cx j, startCuY := cy i }

def grid (cx cy : Nat → Int) (cols rows : Nat) : List (List Tile) :=
  (List.range rows).map fun i => (List.range cols).map (gridTile cx cy i)

section Grid

variable {cx cy : Nat → Int} {cols rows : Nat} {w h : Int} {t : TileInfo}

theorem grid_tile? (ht : t.mTile = grid cx cy cols rows) {i j : Nat} {tile : Tile} :
    t.tile? i j = some tile ↔ i < rows ∧ j < cols ∧ tile = gridTile cx cy i j := by
  rw [TileInfo.tile?, ht, grid, List.getElem?_map]
  by_cases hi : i < rows
  · by_cases hj : j < cols
    · simp [hi, hj, eq_comm]
    · simp [hi, hj]
  · simp [hi]

theorem contains_iff {x y : Int} {i j : Nat} : (gridTile cx cy i j).Contains x y ↔
    (cx j ≤ x ∧ x < cx (j + 1)) ∧ cy i ≤ y ∧ y < cy (i + 1) := by
  rw [Tile.Contains, gridTile, add_sub_cancel, add_sub_cancel]

/-- The areas of the grid make up the picture. -/
theorem sum_areas (hx : IsCut cx cols w) (hy : IsCut cy rows h) :
    ((grid cx cy cols rows).flatten.map fun tile => tile.width * tile.height).sum = w * h := by
  have hrow (i : Nat) : (((List.range cols).map (gridTile cx cy i)).map
      fun tile => tile.width * tile.height).sum = w * (cy (i + 1) - cy i) := by
    rw [List.map_map, ← hx.sum_pieces, ← List.sum_map_mul_right]
    rfl
  rw [List.map_flatten, List.sum_flatten, grid, List.map_map, List.map_map, ← hy.sum_pieces,
    ← List.sum_map_mul_left]
  exact congrArg List.sum (List.map_congr_left fun i _ => hrow i)

/-- The counts ascend as long as each tile has CTUs, and the last one has them all. -/
theorem tileLcus_spec (tiles : List Tile) (before : Int) (h0 : 0 ≤ before)
    (hpos : ∀ tile ∈ tiles, 0 < tile.width * tile.height)
    (hsum : before + (tiles.map fun tile => tile.width * tile.height).sum < 4294967296) :
    (tileLcus before tiles).Pairwise (· < ·) ∧ (∀ lcu ∈ tileLcus before tiles, before < lcu) ∧
      (before :: tileLcus before tiles).getLast? =
        some (before + (tiles.map fun tile => tile.width * tile.height).sum) := by
  induction tiles generalizing before with
  | nil => exact ⟨List.Pairwise.nil, nofun, by simp [tileLcus]⟩
  | cons tile tiles ih =>
    obtain ⟨harea, hpos'⟩ := List.forall_mem_cons.mp hpos
    have hrest : 0 ≤ (tiles.map fun tile => tile.width * tile.height).sum :=
      List.sum_nonneg fun a ha => by
        obtain ⟨tile', htile', rfl⟩ := List.mem_map.mp ha
        exact Int.le_of_lt (hpos' tile' htile')
    rw [List.map_cons, List.sum_cons] at hsum ⊢
    have hlcu : u32 (before + tile.width * tile.height) = before + tile.width * tile.height :=
      u32_of_range (by omega) (by omega)
    obtain ⟨hascending, habove, hlast⟩ := ih (before + tile.width * tile.height) (by omega) hpos'
      (by omega)
    rw [tileLcus, hlcu]
    refine ⟨List.pairwise_cons.mpr ⟨habove, hascending⟩, ?_, ?_⟩
    · intro lcu hmem
      rcases List.mem_cons.mp hmem with rfl | hlater
      · omega
      · exact Int.lt_trans (by omega) (habove lcu hlater)
    · rw [List.getLast?_cons_cons, hlast, Int.add_assoc]

theorem index_apart {i j : Nat} (hi : i < 256) (hj : j < 256) :
    ((j ||| (i <<< 8)) >>> 8) &&& 0xff = i ∧ (j ||| (i <<< 8)) &&& 0xff = j := by
  have hsum : j ||| (i <<< 8) = i * 256 + j := by
    rw [Nat.or_comm, ← Nat.shiftLeft_add_eq_or_of_lt hj, Nat.shiftLeft_eq]
  have hmask (n : Nat) : n &&& 0xff = n % 256 := Nat.and_two_pow_sub_one_eq_mod n 8
  rw [hsum, hmask, hmask, Nat.shiftRight_eq_div_pow]
  omega

/-- The search finds the column in the first row, and the row in the first column. -/
theorem getTileIndex_grid (ht : t.mTile = grid cx cy cols rows)
    (henabled : t.tileEnabled = true ∨ cols = 1 ∧ rows = 1) (hx : IsCut cx cols w)
    (hy : IsCut cy rows h) (hcols : 0 < cols) {adr : Int} (h0 : 0 ≤ adr) {i j : Nat} (hi : i < rows)
    (hj : j < cols) (hjx : cx j ≤ adr % w ∧ adr % w < cx (j + 1))
    (hiy : cy i ≤ adr / w ∧ adr / w < cy (i + 1)) :
    getTileIndex t adr w = ((j ||| (i <<< 8) : Nat) : Int) := by
  have hw : 0 < w := by
    have hbounds := hx.lt hcols (le_refl cols)
    rwa [hx.zero, hx.whole] at hbounds
  have hfirst : (t.mTile.headD []).map Tile.startCuX = (List.range cols).map cx := by
    obtain ⟨rows, rfl⟩ := Nat.exists_eq_add_one_of_ne_zero (Nat.ne_of_gt (Nat.zero_lt_of_lt hi))
    rw [ht, grid, List.range_succ_eq_map, List.map_cons, List.headD_cons, List.map_map]
    rfl
  have hheads : (t.mTile.map fun row => (row.head?.map Tile.startCuY).getD 0) =
      (List.range rows).map cy := by
    obtain ⟨cols, rfl⟩ := Nat.exists_eq_add_one_of_ne_zero (Nat.ne_of_gt hcols)
    rw [ht, grid, List.map_map]
    refine List.map_congr_left fun i _ => ?_
    rw [Function.comp_apply, List.range_succ_eq_map]
    rfl
  rw [getTileIndex, if_neg (Int.ne_of_gt hw), hfirst, hheads, Int.tmod_eq_emod_of_nonneg h0,
    Int.tdiv_eq_ediv_of_nonneg h0]
  dsimp only
  rw [hx.lastStart_eq hj hjx, hy.lastStart_eq hi hiy]
  rcases henabled with hon | ⟨rfl, rfl⟩
  · rw [hon, if_pos rfl, if_pos rfl]
  · obtain rfl := Nat.lt_one_iff.mp hi
    obtain rfl := Nat.lt_one_iff.mp hj
    rw [ite_self]

/-- A grid between cuts is right. -/
theorem tiled_grid (ht : t.mTile = grid cx cy cols rows) (hlcu : t.tileLcu = tileLcus 0 t.mTile.flatten)
    (henabled : t.tileEnabled = true ∨ cols = 1 ∧ rows = 1) (hx : IsCut cx cols w)
    (hy : IsCut cy rows h) (hcols : 0 < cols ∧ cols < 256) (hrows : 0 < rows ∧ rows < 256)
    (hsize : w * h < 4294967296) : Tiled t w h := by
  have htile {i j : Nat} {tile : Tile} := @grid_tile? cx cy cols rows t ht i j tile
  have hpos : ∀ tile ∈ t.mTile.flatten, 0 < tile.width * tile.height := by
    intro tile hmem
    obtain ⟨row, hrow, htile⟩ := List.mem_flatten.mp (ht ▸ hmem)
    obtain ⟨i, hi, rfl⟩ := List.mem_map.mp hrow
    obtain ⟨j, hj, rfl⟩ := List.mem_map.mp htile
    have hwidth := hx.ascending j (List.mem_range.mp hj)
    have hheight := hy.ascending i (List.mem_range.mp hi)
    exact Int.mul_pos (Int.sub_pos.mpr hwidth) (Int.sub_pos.mpr hheight)
  have hareas : (t.mTile.flatten.map fun tile => tile.width * tile.height).sum = w * h := by
    rw [ht]
    exact sum_areas hx hy
  obtain ⟨hascending, -, hlast⟩ := tileLcus_spec t.mTile.flatten 0 (le_refl 0) hpos (by omega)
  rw [Int.zero_add, hareas, ← hlcu] at hlast
  rw [← hlcu] at hascending
  have hw : 0 < w := by
    have hbounds := hx.lt hcols.1 (le_refl cols)
    rwa [hx.zero, hx.whole] at hbounds
  have hh : 0 < h := by
    have hbounds := hy.lt hrows.1 (le_refl rows)
    rwa [hy.zero, hy.whole] at hbounds
  have hpiece {x y : Int} (hx0 : 0 ≤ x) (hxw : x < w) (hy0 : 0 ≤ y) (hyh : y < h) :
      ∃ i j, i < rows ∧ j < cols ∧ (cx j ≤ x ∧ x < cx (j + 1)) ∧ cy i ≤ y ∧ y < cy (i + 1) := by
    obtain ⟨j, hj, hjx⟩ := hx.exists_piece hx0 hxw
    obtain ⟨i, hi, hiy⟩ := hy.exists_piece hy0 hyh
    exact ⟨i, j, hi, hj, hjx, hiy⟩
  refine ⟨?_, ?_, ?_, hascending, ?_, ?_⟩
  · intro i j tile hmem
    obtain ⟨hi, hj, rfl⟩ := htile.mp hmem
    exact ⟨Int.sub_pos.mpr (hx.ascending j hj), Int.sub_pos.mpr (hy.ascending i hi)⟩
  · intro i j tile hmem x y hin
    obtain ⟨hi, hj, rfl⟩ := htile.mp hmem
    obtain ⟨⟨hleft, hright⟩, htop, hbottom⟩ := contains_iff.mp hin
    have hbounds := hx.bounds hj
    have hbounds' := hy.bounds hi
    omega
  · intro x y hx0 hxw hy0 hyh
    obtain ⟨i, j, hi, hj, hjx, hiy⟩ := hpiece hx0 hxw hy0 hyh
    refine ⟨(i, j), ⟨_, htile.mpr ⟨hi, hj, rfl⟩, contains_iff.mpr ⟨hjx, hiy⟩⟩, ?_⟩
    rintro ⟨i', j'⟩ ⟨tile, hmem, hin⟩
    obtain ⟨hi', hj', rfl⟩ := htile.mp hmem
    obtain ⟨hjx', hiy'⟩ := contains_iff.mp hin
    exact Prod.ext (hy.piece_unique hi' hi hiy' hiy) (hx.piece_unique hj' hj hjx' hjx)
  · cases hcounts : t.tileLcu with
    | nil =>
      rw [hcounts, List.getLast?_singleton] at hlast
      exact absurd (Option.some.inj hlast) (Int.ne_of_lt (Int.mul_pos hw hh))
    | cons lcu lcus => rwa [hcounts, List.getLast?_cons_cons] at hlast
  · intro adr hadr0 hadr
    obtain ⟨i, j, hi, hj, hjx, hiy⟩ := hpiece (Int.emod_nonneg adr (Int.ne_of_gt hw))
      (Int.emod_lt_of_pos adr hw) (Int.ediv_nonneg hadr0 hw.le)
      (Int.ediv_lt_of_lt_mul hw (by rw [Int.mul_comm]; exact hadr))
    have hapart := index_apart (Nat.lt_trans hi hrows.2) (Nat.lt_trans hj hcols.2)
    refine ⟨j ||| (i <<< 8), getTileIndex_grid ht henabled hx hy hcols.1 hadr0 hi hj hjx hiy, ?_⟩
    rw [hapart.1, hapart.2]
    exact ⟨_, htile.mpr ⟨hi, hj, rfl⟩, contains_iff.mpr ⟨hjx, hiy⟩⟩

end Grid

/-! ## The loops -/

/-- Where the columns or the rows start. -/
def starts (extent : Nat → Int → Int) : Nat → Int
  | 0 => 0
  | i + 1 => starts extent i + extent i (starts extent i)

section Loops

variable {p : TileParams} {w h : Int}

def TileParams.columnStarts (p : TileParams) (w : Int) : Nat → Int :=
  starts fun j => tileExtent p.uniform w p.numTileCol (p.tileWidthAt j) j

def TileParams.rowStarts (p : TileParams) (h : Int) : Nat → Int :=
  starts fun i => tileExtent p.uniform h p.numTileRow (p.tileHeightAt i) i

theorem gridTile_starts (p : TileParams) (w h : Int) (i j : Nat) :
    gridTile (p.columnStarts w) (p.rowStarts h) i j =
      { width := tileExtent p.uniform w p.numTileCol (p.tileWidthAt j) j (p.columnStarts w j)
        height := tileExtent p.uniform h p.numTileRow (p.tileHeightAt i) i (p.rowStarts h i)
        startCuX := p.columnStarts w j
        startCuY := p.rowStarts h i } := by
  rw [gridTile, TileParams.columnStarts, TileParams.rowStarts, starts, starts, add_sub_cancel_left,
    add_sub_cancel_left]

theorem tileColumns_eq (p : TileParams) (w h : Int) (i left j : Nat) :
    tileColumns p w h i (p.rowStarts h i) left j (p.columnStarts w j) =
      (List.range' j left).map (gridTile (p.columnStarts w) (p.rowStarts h) i) := by
  induction left generalizing j with
  | zero => rfl
  | succ left ih =>
    have hnext : p.columnStarts w (j + 1) = p.columnStarts w j +
        tileExtent p.uniform w p.numTileCol (p.tileWidthAt j) j (p.columnStarts w j) := rfl
    rw [tileColumns, List.range'_succ, List.map_cons, gridTile_starts, ← ih (j + 1), hnext]

theorem tileRows_eq (p : TileParams) (w h : Int) (hcols : 0 < p.numTileCol) (left i : Nat) :
    tileRows p w h left i (p.rowStarts h i) = (List.range' i left).map fun i =>
      (List.range p.numTileCol).map (gridTile (p.columnStarts w) (p.rowStarts h) i) := by
  induction left generalizing i with
  | zero => rfl
  | succ left ih =>
    have hrow : tileColumns p w h i (p.rowStarts h i) p.numTileCol 0 0 =
        (List.range p.numTileCol).map (gridTile (p.columnStarts w) (p.rowStarts h) i) := by
      rw [List.range_eq_range']
      exact tileColumns_eq p w h i p.numTileCol 0
    have hheight : p.rowStarts h (i + 1) = p.rowStarts h i + ((((List.range p.numTileCol).map
        (gridTile (p.columnStarts w) (p.rowStarts h) i)).head?.map Tile.height).getD 0) := by
      obtain ⟨cols, hcols⟩ := Nat.exists_eq_add_one_of_ne_zero (Nat.ne_of_gt hcols)
      rw [hcols, List.range_succ_eq_map, List.map_cons, List.head?_cons, Option.map_some,
        Option.getD_some, gridTile, add_sub_cancel]
    rw [tileRows, List.range'_succ, List.map_cons, hrow, ← ih (i + 1), hheight]

/-- The tiles are the grid of the starts. -/
theorem updateTileInfo_grid (p : TileParams) (w h : Int) (hcols : 0 < p.numTileCol)
    (henabled : p.enabled = true) : (updateTileInfo p w h).mTile =
      grid (p.columnStarts w) (p.rowStarts h) p.numTileCol p.numTileRow := by
  have hrows := tileRows_eq p w h hcols p.numTileRow 0
  rw [← List.range_eq_range'] at hrows
  exact (if_pos henabled).trans hrows

theorem numTileCol_bounds (p : TileParams) : 0 < p.numTileCol ∧ p.numTileCol ≤ 10 := by
  rw [TileParams.numTileCol, MAX_TILE_COL_NUM]
  split <;> omega

theorem numTileRow_bounds (p : TileParams) : 0 < p.numTileRow ∧ p.numTileRow ≤ 20 := by
  rw [TileParams.numTileRow, MAX_TILE_ROW_NUM]
  split <;> omega

theorem even_part {i total : Nat} (n : Nat) (hi : i ≤ 20) (htotal : total ≤ 65535) :
    (s32 ((i : Int) * total)).tdiv n = ((i * total / n : Nat) : Int) := by
  have hle : i * total ≤ 20 * 65535 := Nat.mul_le_mul hi htotal
  rw [← Int.natCast_mul, s32_of_range (by omega) (by omega),
    Int.tdiv_eq_ediv_of_nonneg (Int.natCast_nonneg _), Int.natCast_ediv]

/-- Even parts. -/
theorem isCut_uniform {n : Nat} (hn : 0 < n) (hn' : n ≤ 20) (words : Nat → Int) {size : Int}
    (hle : (n : Int) ≤ size) (hsize : size ≤ 65535) :
    IsCut (starts fun i => tileExtent true size n (words i) i) n size := by
  obtain ⟨total, rfl⟩ := Int.eq_ofNat_of_zero_le (Int.le_trans (Int.natCast_nonneg n) hle)
  have heven := isCut_even hn (Int.ofNat_le.mp hle)
  have hstart : ∀ i ≤ n, starts (fun i => tileExtent true total n (words i) i) i =
      ((i * total / n : Nat) : Int) := by
    intro i
    induction i with
    | zero => intro _; simp [starts]
    | succ i ih =>
      intro hi
      have hpart := even_part n (Nat.le_trans (Nat.le_of_succ_le hi) hn') (Int.ofNat_le.mp hsize)
      have hpart' := even_part n (Nat.le_trans hi hn') (Int.ofNat_le.mp hsize)
      rw [Int.natCast_succ] at hpart'
      rw [starts, ih (Nat.le_of_succ_le hi), tileExtent, if_pos rfl, hpart, hpart', add_sub_cancel]
  refine ⟨rfl, fun i hi => ?_, (hstart n (le_refl n)).trans heven.whole⟩
  rw [hstart i hi.le, hstart (i + 1) hi]
  exact heven.ascending i hi

/-- The last one is what is left. -/
theorem starts_explicit {n : Nat} (hn : 0 < n) (words : Nat → Int) (size : Int) :
    starts (fun i => tileExtent false size n (words i) i) n = size := by
  obtain ⟨n, rfl⟩ := Nat.exists_eq_add_one_of_ne_zero (Nat.ne_of_gt hn)
  rw [starts, tileExtent, if_neg Bool.false_ne_true, if_pos (Nat.add_sub_cancel n 1).symm, add_sub_cancel]

theorem isCut_explicit_iff {n : Nat} (hn : 0 < n) (words : Nat → Int) (size : Int) :
    IsCut (starts fun i => tileExtent false size n (words i) i) n size ↔
      (∀ i < n - 1, 0 < words i) ∧ ((List.range (n - 1)).map words).sum < size := by
  have hlast := starts_explicit hn words size
  obtain ⟨n, rfl⟩ := Nat.exists_eq_add_one_of_ne_zero (Nat.ne_of_gt hn)
  rw [Nat.add_sub_cancel]
  have hstep : ∀ i < n, starts (fun i => tileExtent false size (n + 1) (words i) i) (i + 1) =
      starts (fun i => tileExtent false size (n + 1) (words i) i) i + words i := by
    intro i hi
    rw [starts, tileExtent, if_neg Bool.false_ne_true, if_neg (by omega)]
  have hsum : ∀ i ≤ n, starts (fun i => tileExtent false size (n + 1) (words i) i) i =
      ((List.range i).map words).sum := by
    intro i
    induction i with
    | zero => intro _; rfl
    | succ i ih =>
      intro hi
      rw [hstep i hi, ih (Nat.le_of_succ_le hi), List.range_succ, List.map_append, List.sum_append,
        List.map_singleton, List.sum_singleton]
  constructor
  · intro h
    refine ⟨fun i hi => ?_, ?_⟩
    · have hascending := h.ascending i (Nat.lt_succ_of_lt hi)
      rw [hstep i hi] at hascending
      omega
    · have hascending := h.ascending n (Nat.lt_succ_self n)
      rwa [hlast, hsum n (le_refl n)] at hascending
  · rintro ⟨hpos, hlt⟩
    refine ⟨rfl, fun i hi => ?_, hlast⟩
    rcases Nat.lt_succ_iff_lt_or_eq.mp hi with hearlier | rfl
    · have hword := hpos i hearlier
      rw [hstep i hearlier]
      omega
    · rwa [hlast, hsum i (le_refl i)]

theorem tiled_iff_rows (henabled : p.enabled = true) (hcols : IsCut (p.columnStarts w) p.numTileCol w)
    (hwhole : p.rowStarts h p.numTileRow = h) (hsize : w * h < 4294967296) :
    Tiled (updateTileInfo p w h) w h ↔ IsCut (p.rowStarts h) p.numTileRow h := by
  obtain ⟨hcol, hcol'⟩ := numTileCol_bounds p
  obtain ⟨hrow, hrow'⟩ := numTileRow_bounds p
  have hgrid := updateTileInfo_grid p w h hcol henabled
  constructor
  · intro htiled
    refine ⟨rfl, fun i hi => ?_, hwhole⟩
    obtain ⟨-, hheight⟩ := htiled.nonempty i 0 _ ((grid_tile? hgrid).mpr ⟨hi, hcol, rfl⟩)
    exact Int.sub_pos.mp hheight
  · intro hrows
    exact tiled_grid hgrid rfl (Or.inl henabled) hcols hrows ⟨hcol, by omega⟩ ⟨hrow, by omega⟩ hsize

end Loops

variable {p : TileParams} {w h : Int}

/-- For every picture and all parameters whose tiles fit, the tiles are right exactly when the words that
are read behind the eight heights fit too. -/
theorem tiles_right_iff (p : TileParams) (hw : 0 < w ∧ w ≤ 65535) (hh : 0 < h ∧ h ≤ 65535)
    (hfit : TilesFit p w h) : Tiled (updateTileInfo p w h) w h ↔ RowsGiven p h := by
  have hsize : w * h < 4294967296 :=
    Int.lt_of_le_of_lt (Int.mul_le_mul hw.2 hh.2 hh.1.le (by decide)) (by decide)
  obtain ⟨hcol, hcol'⟩ := numTileCol_bounds p
  obtain ⟨hrow, hrow'⟩ := numTileRow_bounds p
  by_cases henabled : p.enabled = true
  · cases huniform : p.uniform with
    | true =>
      obtain ⟨hevenCols, hevenRows⟩ := hfit.even henabled huniform
      have hcols : IsCut (p.columnStarts w) p.numTileCol w := by
        rw [TileParams.columnStarts, huniform]
        exact isCut_uniform hcol (by omega) _ hevenCols hw.2
      have hrows : IsCut (p.rowStarts h) p.numTileRow h := by
        rw [TileParams.rowStarts, huniform]
        exact isCut_uniform hrow hrow' _ hevenRows hh.2
      refine iff_of_true ((tiled_iff_rows henabled hcols hrows.whole hsize).mpr hrows) ?_
      intro _ hexplicit
      exact absurd (huniform.symm.trans hexplicit) (by decide)
    | false =>
      have hcols : IsCut (p.columnStarts w) p.numTileCol w := by
        rw [TileParams.columnStarts, huniform]
        exact (isCut_explicit_iff hcol _ w).mpr (hfit.widths henabled huniform)
      have hwhole : p.rowStarts h p.numTileRow = h := by
        rw [TileParams.rowStarts, huniform]
        exact starts_explicit hrow _ h
      rw [tiled_iff_rows henabled hcols hwhole hsize, TileParams.rowStarts, huniform,
        isCut_explicit_iff hrow]
      exact ⟨fun hgiven _ _ => hgiven, fun hgiven => hgiven henabled huniform⟩
  · refine iff_of_true ?_ fun henabled' => absurd henabled' henabled
    have hcut {size : Int} (hpos : 0 < size) : IsCut (fun i => i * size) 1 size := by
      refine ⟨Int.zero_mul _, fun i hi => ?_, Int.one_mul _⟩
      obtain rfl := Nat.lt_one_iff.mp hi
      simpa using hpos
    have hgrid : (updateTileInfo p w h).mTile = grid (fun i => i * w) (fun i => i * h) 1 1 := by
      rw [updateTileInfo]
      dsimp only
      rw [if_neg henabled]
      simp [grid, gridTile]
    exact tiled_grid hgrid rfl (Or.inr ⟨rfl, rfl⟩) (hcut hw.1) (hcut hh.1) ⟨Nat.one_pos, by decide⟩
      ⟨Nat.one_pos, by decide⟩ hsize

/-- Three columns and four rows with sizes of their own. -/
def twelveTiles : TileParams where
  tilesEnabledFlag := 1
  numTileColumnsMinus1 := 2
  numTileRowsMinus1 := 3
  tileWidth := fun _ => 5
  tileHeight := fun _ => 2
  behind := fun _ => 0

theorem twelveTiles_right : Tiled (updateTileInfo twelveTiles 12 9) 12 9 :=
  (tiles_right_iff twelveTiles (by decide) (by decide)
    ⟨by decide, fun _ _ => by decide, fun _ _ => by decide⟩).mpr fun _ _ => by decide

/-- Eleven rows of one CTU, and no words behind the eight heights. -/
def elevenRows : TileParams where
  tilesEnabledFlag := 1
  numTileColumnsMinus1 := 0
  numTileRowsMinus1 := 10
  tileWidth := fun _ => 0
  tileHeight := fun _ => 1
  behind := fun _ => 0

theorem elevenRows_wrong : ¬ ∀ (p : TileParams) (w h : Int), 0 < w ∧ w ≤ 65535 → 0 < h ∧ h ≤ 65535 →
    TilesFit p w h → Tiled (updateTileInfo p w h) w h := by
  intro hall
  have htiled := hall elevenRows 4 20 (by decide) (by decide)
    ⟨by decide, fun _ _ => by decide, fun _ _ => by decide⟩
  exact absurd htiled.ascending (by decide)

end MediaModules.Hevc
