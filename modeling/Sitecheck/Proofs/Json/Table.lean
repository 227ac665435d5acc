import Sitecheck.Proofs.Except
import Sitecheck.Proofs.Json.Key
import Sitecheck.Proofs.Json.Reading

/-!
# Tables under many changes

Pairs that are put into a table of texts are the rows that the same pairs make in an
empty table: those whose key was there stand in its place, and the others follow
(`overlay_putPairs`).  As members of an object, they are set and all else is kept
(`Overlay.merged`).
-/

namespace Sitecheck

namespace Fields

/-- Only the given members have changed, each to a value that is given for it; the keys
that were there are in their order, and those that are new come after them. -/
structure Merged {α : Type} (given before after : List (String × α)) : Prop where
  keys : ∃ new, after.map Prod.fst = before.map Prod.fst ++ new ∧ ∀ key ∈ new, key ∈ given.map Prod.fst
  changed : ∀ key ∈ given.map Prod.fst, ∃ value, (key, value) ∈ given ∧ get? key after = some value
  others : ∀ key, key ∉ given.map Prod.fst → get? key after = get? key before

end Fields

namespace Json

variable {row : Json × Json} {front pairs : List (Json × Json)} {text : String}
  {fields : List (String × Json)} {levels : Nat} {value : Json}

variable {key value : Json} {table : List (Json × Json)}

/-! ## Putting one pair -/

def Distinct (table : List (Json × Json)) : Prop :=
  table.Pairwise fun first later => sameKey first.1 later.1 = false

theorem Distinct.eq_of_sameKey (h : Distinct table) {first second : Json × Json}
    (hfirst : first ∈ table) (hsecond : second ∈ table) (hsame : sameKey first.1 second.1 = true) :
    first = second := by
  induction table with
  | nil => cases hfirst
  | cons head rest ih =>
    obtain ⟨hhead, hrest⟩ := List.pairwise_cons.mp h
    rcases List.mem_cons.mp hfirst with hfirst | hfirst <;>
      rcases List.mem_cons.mp hsecond with hsecond | hsecond
    · rw [hfirst, hsecond]
    · rw [hfirst, hhead second hsecond] at hsame
      cases hsame
    · have hsame' := sameKey_comm hsame
      rw [hsecond, hhead first hfirst] at hsame'
      cases hsame'
    · exact ih hrest hfirst hsecond

def placed (key : Json) : List (Json × Json) → Json
  | [] => key
  | (name, _) :: rest => if sameKey name key then name else placed key rest

theorem placed_of_not (h : ∀ row ∈ table, sameKey row.1 key = false) : placed key table = key := by
  induction table with
  | nil => rfl
  | cons head rest ih =>
    obtain ⟨hhead, hrest⟩ := List.forall_mem_cons.mp h
    rw [placed, hhead, if_neg Bool.false_ne_true, ih hrest]

theorem placed_cases (key : Json) (table : List (Json × Json)) :
    (placed key table = key ∧ ∀ row ∈ table, sameKey row.1 key = false) ∨
      ∃ row ∈ table, row.1 = placed key table ∧ sameKey row.1 key = true := by
  induction table with
  | nil => exact .inl ⟨rfl, by simp⟩
  | cons head rest ih =>
    rw [placed]
    cases hhead : sameKey head.1 key with
    | true => exact .inr ⟨head, List.mem_cons_self, by simp, hhead⟩
    | false =>
      rcases ih with ⟨hplaced, hrest⟩ | ⟨row, hrow, hplaced, hsame⟩
      · exact .inl ⟨hplaced, List.forall_mem_cons.mpr ⟨hhead, hrest⟩⟩
      · exact .inr ⟨row, List.mem_cons_of_mem _ hrow, hplaced, hsame⟩

theorem placed_of_mem (h : Distinct table) (hrow : row ∈ table) (hsame : sameKey row.1 key = true) :
    placed key table = row.1 := by
  rcases placed_cases key table with ⟨-, hnot⟩ | ⟨other, hother, hplaced, hsame'⟩
  · rw [hnot row hrow] at hsame
    cases hsame
  · rw [← hplaced, h.eq_of_sameKey hother hrow (sameKey_trans hsame' (sameKey_comm hsame))]

theorem mem_putPair_iff (h : Distinct table) :
    row ∈ putPair key value table ↔
      row = (placed key table, value) ∨ row ∈ table ∧ sameKey row.1 key = false := by
  induction table with
  | nil => simp [putPair, placed]
  | cons head rest ih =>
    obtain ⟨hhead, hrest⟩ := List.pairwise_cons.mp h
    rw [putPair, placed]
    cases hsame : sameKey head.1 key with
    | true =>
      -- the other rows have other keys than the first, and so other keys than the new one
      have hothers : ∀ row ∈ rest, sameKey row.1 key = false := fun row hrow => by
        rw [Bool.eq_false_iff]
        intro htrue
        have hfalse := hhead row hrow
        rw [sameKey_trans hsame (sameKey_comm htrue)] at hfalse
        cases hfalse
      rw [if_pos rfl, if_pos rfl, List.mem_cons, List.mem_cons]
      constructor
      · rintro (rfl | hrow)
        · exact .inl rfl
        · exact .inr ⟨.inr hrow, hothers row hrow⟩
      · rintro (rfl | ⟨rfl | hrow, hfalse⟩)
        · exact .inl rfl
        · rw [hsame] at hfalse
          cases hfalse
        · exact .inr hrow
    | false =>
      rw [if_neg Bool.false_ne_true, if_neg Bool.false_ne_true, List.mem_cons, ih hrest, List.mem_cons]
      constructor
      · rintro (rfl | hrow | ⟨hrow, hfalse⟩)
        · exact .inr ⟨.inl rfl, hsame⟩
        · exact .inl hrow
        · exact .inr ⟨.inr hrow, hfalse⟩
      · rintro (hrow | ⟨rfl | hrow, hfalse⟩)
        · exact .inr (.inl hrow)
        · exact .inl rfl
        · exact .inr (.inr ⟨hrow, hfalse⟩)

theorem distinct_putPair (h : Distinct table) (key value : Json) : Distinct (putPair key value table) := by
  induction table with
  | nil => simp [putPair, Distinct]
  | cons head rest ih =>
    obtain ⟨hhead, hrest⟩ := List.pairwise_cons.mp h
    rw [putPair]
    cases hsame : sameKey head.1 key with
    | true => exact List.pairwise_cons.mpr ⟨hhead, hrest⟩
    | false =>
      refine List.pairwise_cons.mpr ⟨fun row hrow => ?_, ih hrest⟩
      rcases (mem_putPair_iff hrest).mp hrow with rfl | ⟨hrow, -⟩
      · rcases placed_cases key rest with ⟨hplaced, -⟩ | ⟨other, hother, hplaced, -⟩
        · rw [hplaced]
          exact hsame
        · rw [← hplaced]
          exact hhead other hother
      · exact hhead row hrow

theorem putPair_append_of_mem (h : ∃ row ∈ front, sameKey row.1 key = true) (value : Json)
    (back : List (Json × Json)) :
    putPair key value (front ++ back) = putPair key value front ++ back := by
  induction front with
  | nil => simp at h
  | cons head rest ih =>
    rw [List.cons_append, putPair, putPair]
    cases hsame : sameKey head.1 key with
    | true => rfl
    | false =>
      obtain ⟨row, hrow, htrue⟩ := h
      rcases List.mem_cons.mp hrow with rfl | hrow
      · rw [hsame] at htrue
        cases htrue
      · rw [if_neg Bool.false_ne_true, if_neg Bool.false_ne_true, ih ⟨row, hrow, htrue⟩]
        rfl

theorem putPair_append_of_not (h : ∀ row ∈ front, sameKey row.1 key = false) (value : Json)
    (back : List (Json × Json)) :
    putPair key value (front ++ back) = front ++ putPair key value back := by
  induction front with
  | nil => rfl
  | cons head rest ih =>
    obtain ⟨hhead, hrest⟩ := List.forall_mem_cons.mp h
    rw [List.cons_append, putPair, hhead, if_neg Bool.false_ne_true, ih hrest]
    rfl

theorem keys_putPair (h : ∃ row ∈ table, sameKey row.1 key = true) (value : Json) :
    (putPair key value table).map Prod.fst = table.map Prod.fst := by
  induction table with
  | nil => simp at h
  | cons head rest ih =>
    rw [putPair]
    cases hsame : sameKey head.1 key with
    | true => rfl
    | false =>
      obtain ⟨row, hrow, htrue⟩ := h
      rcases List.mem_cons.mp hrow with rfl | hrow
      · rw [hsame] at htrue
        cases htrue
      · rw [if_neg Bool.false_ne_true, List.map_cons, List.map_cons, ih ⟨row, hrow, htrue⟩]

theorem forall_putPairs {K V : Json → Prop} {changes : List (Json × Json)}
    (hchanges : ∀ pair ∈ changes, K pair.1 ∧ V pair.2) (htable : ∀ pair ∈ table, K pair.1 ∧ V pair.2) :
    ∀ pair ∈ putPairs changes table, K pair.1 ∧ V pair.2 := by
  have hstep (key value : Json) (table : List (Json × Json)) (hpair : K key ∧ V value)
      (htable : ∀ pair ∈ table, K pair.1 ∧ V pair.2) :
      ∀ pair ∈ putPair key value table, K pair.1 ∧ V pair.2 := by
    induction table with
    | nil =>
      simp only [putPair, List.forall_mem_singleton]
      exact hpair
    | cons head rest ih =>
      obtain ⟨hhead, hrest⟩ := List.forall_mem_cons.mp htable
      rw [putPair]
      split
      · exact List.forall_mem_cons.mpr ⟨⟨hhead.1, hpair.2⟩, hrest⟩
      · exact List.forall_mem_cons.mpr ⟨hhead, ih hrest⟩
  induction changes generalizing table with
  | nil => exact htable
  | cons change changes ih =>
    obtain ⟨hchange, hchanges⟩ := List.forall_mem_cons.mp hchanges
    exact ih hchanges (hstep _ _ _ hchange htable)

/-! ## Putting many pairs -/

theorem eq_of_sameKey_str (h : sameKey (.str text) key = true) : key = .str text := by
  rcases key with _ | _ | _ | _ | other | _ | _ <;>
    simp only [sameKey, keyNumber?, beq_iff_eq, Bool.false_eq_true] at h
  rw [h]

/-- A table of texts after changes, beside the rows that are given: those at the front have
the keys of the table, and those behind are new. -/
structure Overlay (old given front back : List (Json × Json)) : Prop where
  keys : front.map Prod.fst = old.map Prod.fst
  of_front : ∀ row ∈ front, row ∈ given ∨ row ∈ old
  of_back : ∀ row ∈ back, row ∈ given
  of_given : ∀ row ∈ given, row ∈ front ++ back
  given : Distinct given
  table : Distinct (front ++ back)

variable {old given front back : List (Json × Json)}

theorem Overlay.put_front (h : Overlay old given front back)
    (hold : ∀ row ∈ old, ∃ text, row.1 = .str text) (hkey : ∃ row ∈ front, sameKey row.1 key = true)
    (value : Json) : Overlay old (putPair key value given) (putPair key value front) back := by
  have hfront : Distinct front := (List.pairwise_append.mp h.table).1
  obtain ⟨row, hrow, hsame⟩ := hkey
  obtain ⟨text, htext⟩ : ∃ text, row.1 = .str text := by
    have hname : row.1 ∈ old.map Prod.fst := h.keys ▸ List.mem_map_of_mem hrow
    obtain ⟨other, hother, heq⟩ := List.mem_map.mp hname
    exact heq ▸ hold other hother
  obtain rfl : key = .str text := eq_of_sameKey_str (htext ▸ hsame)
  have hplaced : placed (.str text) given = .str text := by
    rcases placed_cases (.str text) given with ⟨hplaced, -⟩ | ⟨other, -, hplaced, hother⟩
    · exact hplaced
    · exact hplaced.symm.trans (eq_of_sameKey_str (sameKey_comm hother))
  have hplacedFront : placed (.str text) front = .str text :=
    (placed_of_mem hfront hrow hsame).trans htext
  refine ⟨(keys_putPair ⟨row, hrow, hsame⟩ value).trans h.keys, ?_, ?_, ?_, distinct_putPair h.given _ _, ?_⟩
  · intro other hother
    rw [mem_putPair_iff hfront, hplacedFront] at hother
    rw [mem_putPair_iff h.given, hplaced]
    rcases hother with rfl | ⟨hother, hfalse⟩
    · exact .inl (.inl rfl)
    · exact (h.of_front other hother).imp (fun hgiven => .inr ⟨hgiven, hfalse⟩) id
  · intro other hother
    -- what is behind has another key than what is at the front
    have hfalse := (List.pairwise_append.mp h.table).2.2 row hrow other hother
    refine (mem_putPair_iff h.given).mpr (.inr ⟨h.of_back other hother, ?_⟩)
    rw [Bool.eq_false_iff] at hfalse ⊢
    rw [htext] at hfalse
    exact fun htrue => hfalse (sameKey_comm htrue)
  · intro other hother
    rw [mem_putPair_iff h.given, hplaced] at hother
    rw [List.mem_append, mem_putPair_iff hfront, hplacedFront]
    rcases hother with rfl | ⟨hother, hfalse⟩
    · exact .inl (.inl rfl)
    · exact (List.mem_append.mp (h.of_given other hother)).imp (fun hmem => .inr ⟨hmem, hfalse⟩) id
  · rw [← putPair_append_of_mem ⟨row, hrow, hsame⟩]
    exact distinct_putPair h.table _ _

theorem Overlay.put_back (h : Overlay old given front back)
    (hkey : ∀ row ∈ front, sameKey row.1 key = false) (value : Json) :
    Overlay old (putPair key value given) front (putPair key value back) := by
  have hback : Distinct back := (List.pairwise_append.mp h.table).2.1
  have hplaced : placed key given = placed key back := by
    rcases placed_cases key given with ⟨hplaced, hnot⟩ | ⟨row, hrow, hplaced, hsame⟩
    · rw [hplaced, placed_of_not fun row hrow => hnot row (h.of_back row hrow)]
    · rw [← hplaced]
      refine (placed_of_mem hback ?_ hsame).symm
      refine (List.mem_append.mp (h.of_given row hrow)).resolve_left fun hmem => ?_
      rw [hkey row hmem] at hsame
      cases hsame
  refine ⟨h.keys, ?_, ?_, ?_, distinct_putPair h.given _ _, ?_⟩
  · intro row hrow
    refine (h.of_front row hrow).imp_left fun hgiven => ?_
    exact (mem_putPair_iff h.given).mpr (.inr ⟨hgiven, hkey row hrow⟩)
  · intro row hrow
    rw [mem_putPair_iff hback] at hrow
    rw [mem_putPair_iff h.given, hplaced]
    exact hrow.imp_right fun hmem => ⟨h.of_back row hmem.1, hmem.2⟩
  · intro row hrow
    rw [mem_putPair_iff h.given, hplaced] at hrow
    rw [List.mem_append, mem_putPair_iff hback]
    rcases hrow with hrow | ⟨hrow, hfalse⟩
    · exact .inr (.inl hrow)
    · exact (List.mem_append.mp (h.of_given row hrow)).imp id fun hmem => .inr ⟨hmem, hfalse⟩
  · rw [← putPair_append_of_not hkey]
    exact distinct_putPair h.table _ _

/-- Pairs that are put into a table of texts are the rows that they make in an empty one. -/
theorem overlay_putPairs (hold : ∀ row ∈ old, ∃ text, row.1 = .str text) (hdistinct : Distinct old)
    (pairs : List (Json × Json)) :
    ∃ front back, putPairs pairs old = front ++ back ∧ Overlay old (putPairs pairs []) front back := by
  -- one pair after the other, from the first to the last
  have hrun (pairs : List (Json × Json)) : ∀ given front back, Overlay old given front back →
      ∃ front' back', putPairs pairs (front ++ back) = front' ++ back' ∧
        Overlay old (putPairs pairs given) front' back' := by
    induction pairs with
    | nil => exact fun given front back h => ⟨front, back, rfl, h⟩
    | cons pair pairs ih =>
      intro given front back h
      by_cases hkey : ∃ row ∈ front, sameKey row.1 pair.1 = true
      · have hput := putPair_append_of_mem hkey pair.2 back
        have hrest := ih _ _ _ (h.put_front hold hkey pair.2)
        rw [← hput] at hrest
        exact hrest
      · have hnot : ∀ row ∈ front, sameKey row.1 pair.1 = false := fun row hrow =>
          Bool.eq_false_iff.mpr fun htrue => hkey ⟨row, hrow, htrue⟩
        have hput := putPair_append_of_not hnot pair.2 back
        have hrest := ih _ _ _ (h.put_back hnot pair.2)
        rw [← hput] at hrest
        exact hrest
  have hstart : Overlay old [] old [] :=
    ⟨rfl, fun _ hrow => .inr hrow, by simp, by simp, .nil, by rwa [List.append_nil]⟩
  have hall := hrun pairs [] old [] hstart
  rwa [List.append_nil] at hall

/-! ## As members of an object -/

def named (table : List (Json × Json)) : List (String × Json) :=
  table.map fun row => (keyName row.1, row.2)

theorem ofTable_eq (table : List (Json × Json)) : ofTable table = .obj (named table) := rfl

theorem distinct_texts (h : (fields.map Prod.fst).Nodup) :
    Distinct (fields.map fun field => (.str field.1, field.2)) := by
  refine List.pairwise_map.mpr ((List.pairwise_map.mp h).imp fun hne => ?_)
  exact beq_false_of_ne hne

theorem Overlay.merged (hnodup : (fields.map Prod.fst).Nodup)
    (h : Overlay (fields.map fun field => (.str field.1, field.2)) given front back) :
    Fields.Merged (named given) fields (Fields.update (named (front ++ back)) []) := by
  have hkeys : (named front).map Prod.fst = fields.map Prod.fst := by
    have hnames := congrArg (List.map keyName) h.keys
    simpa [named, keyName, Function.comp_def] using hnames
  have hfront : ((named front).map Prod.fst).Nodup := hkeys ▸ hnodup
  have hnamed {row : Json × Json} {table : List (Json × Json)} (hrow : row ∈ table) :
      (keyName row.1, row.2) ∈ named table := List.mem_map_of_mem hrow
  have hafter : Fields.update (named (front ++ back)) [] = Fields.update (named back) (named front) := by
    have hsplit : named (front ++ back) = named front ++ named back := List.map_append
    rw [hsplit, Fields.update_append, Fields.update_nil_of_nodup hfront]
  have hback : ∀ field ∈ named back, field ∈ named given := by
    intro field hfield
    obtain ⟨row, hrow, rfl⟩ := List.mem_map.mp hfield
    exact hnamed (h.of_back row hrow)
  rw [hafter]
  refine ⟨?_, fun key hkey => ?_, fun key hkey => ?_⟩
  · obtain ⟨new, hnew, hmem⟩ := Fields.keys_update (named back) (named front)
    refine ⟨new, hkeys ▸ hnew, fun key hkey => ?_⟩
    obtain ⟨field, hfield, rfl⟩ := List.mem_map.mp (hmem key hkey)
    exact List.mem_map_of_mem (hback field hfield)
  · by_cases hnew : key ∈ (named back).map Prod.fst
    · obtain ⟨value, hmem, hget⟩ := Fields.exists_get?_update hnew (named front)
      exact ⟨value, hback _ hmem, hget⟩
    · -- a given row that is not behind is at the front
      obtain ⟨field, hfield, rfl⟩ := List.mem_map.mp hkey
      obtain ⟨row, hrow, rfl⟩ := List.mem_map.mp hfield
      have hmem : row ∈ front := (List.mem_append.mp (h.of_given row hrow)).resolve_right fun hmem =>
        hnew (List.mem_map_of_mem (hnamed hmem))
      refine ⟨row.2, hfield, ?_⟩
      rw [Fields.get?_update_of_not_mem hnew, Fields.get?_of_mem hfront (hnamed hmem)]
  · have hnew : key ∉ (named back).map Prod.fst := fun hmem => by
      obtain ⟨field, hfield, rfl⟩ := List.mem_map.mp hmem
      exact hkey (List.mem_map_of_mem (hback field hfield))
    rw [Fields.get?_update_of_not_mem hnew]
    by_cases hold : key ∈ fields.map Prod.fst
    · obtain ⟨field, hfield, rfl⟩ := List.mem_map.mp (hkeys ▸ hold : key ∈ (named front).map Prod.fst)
      rw [Fields.get?_of_mem hfront hfield]
      obtain ⟨row, hrow, rfl⟩ := List.mem_map.mp hfield
      rcases h.of_front row hrow with hgiven | hmem
      · exact absurd (List.mem_map_of_mem (hnamed hgiven)) hkey
      · obtain ⟨field, hmember, rfl⟩ := List.mem_map.mp hmem
        exact (Fields.get?_of_mem hnodup hmember).symm
    · rw [Fields.get?_eq_none_iff.mpr hold, Fields.get?_eq_none_iff.mpr (hkeys ▸ hold)]

/-! ## Tables of texts -/

theorem ofTable_putPair (key : String) (value : Json) (fields : List (String × Json)) :
    putPair (.str key) value (fields.map fun (key, value) => (.str key, value)) =
      (Fields.set key value fields).map fun (key, value) => (.str key, value) := by
  induction fields with
  | nil => rfl
  | cons field fields ih =>
    rw [List.map_cons, putPair, sameKey_str, Fields.set, ih]
    split <;> rfl

theorem putPairs_map (changes fields : List (String × Json)) :
    putPairs (changes.map fun (key, value) => (.str key, value))
        (fields.map fun (key, value) => (.str key, value)) =
      (Fields.update changes fields).map fun (key, value) => (.str key, value) := by
  induction changes generalizing fields with
  | nil => rfl
  | cons change changes ih =>
    have hput := ofTable_putPair change.1 change.2 fields
    have hrest := ih (Fields.set change.1 change.2 fields)
    rw [← hput] at hrest
    exact hrest

theorem ofTable_map (fields : List (String × Json)) :
    ofTable (fields.map fun (key, value) => (.str key, value)) = .obj fields := by
  simp [ofTable, keyName, Function.comp_def]

/-! ## The pairs that a value lists -/

theorem forall_pairsFrom {P : Json × Json → Prop} {items : List Json}
    (hitems : ∀ item ∈ items, ∀ pair, pair? item = some pair → pair.1.isKey = true → P pair)
    {position : Nat} (h : pairsFrom position items = .ok pairs) :
    ∀ pair ∈ pairs, P pair := by
  induction items generalizing position pairs with
  | nil =>
    cases h
    simp
  | cons item items ih =>
    obtain ⟨hitem, hitems⟩ := List.forall_mem_cons.mp hitems
    obtain ⟨pair, hpair, h⟩ := bind_eq_ok_iff.mp h
    obtain ⟨rest, hrest, h⟩ := bind_eq_ok_iff.mp h
    cases h
    refine List.forall_mem_cons.mpr ⟨?_, ih hitems hrest⟩
    unfold pairAt at hpair
    split at hpair
    · next found hfound =>
      obtain ⟨_, hkey, hpair⟩ := bind_eq_ok_iff.mp hpair
      cases hpair
      refine hitem pair hfound ?_
      unfold checkKey at hkey
      split at hkey
      · assumption
      · cases hkey
    · split at hpair <;> cases hpair

theorem Bounded.mono (h : Bounded levels value) : Bounded (levels + 1) value := by
  induction h with
  | null => exact .null
  | bool value => exact .bool value
  | int hvalue => exact .int hvalue
  | float hvalue => exact .float hvalue
  | str text => exact .str text
  | arr _ ih => exact .arr ih
  | obj _ hkeys ih => exact .obj ih hkeys

theorem Kept.mono (h : Kept levels value) : Kept (levels + 1) value :=
  ⟨h.bounded.mono, h.reread⟩

theorem kept_str_iff : Kept levels (.str text) ↔ Text.reread text = text :=
  ⟨fun h => Json.str.inj h.reread, fun h => ⟨.str text, congrArg Json.str h⟩⟩

theorem Bounded.regular (h : Bounded levels value) : value.Regular := by
  induction h with
  | null => exact .null
  | bool value => exact .bool value
  | int => exact .int _
  | float hvalue => exact .float hvalue
  | str text => exact .str text
  | arr _ ih => exact .arr ih
  | obj _ _ ih => exact .obj ih

theorem Kept.reread_keyName (h : Kept levels key) : Text.reread (keyName key) = keyName key := by
  have hwritten : Text.mark ∉ (key.write .line).toList := by
    intro hmem
    rw [write, String.toList_ofList] at hmem
    cases h.bounded.regular.printable .line 0 [] printable_nil _ hmem
  cases key with
  | str => exact kept_str_iff.mp h
  | _ => exact Text.reread_of_not_mem hwritten

def KeptPair (levels : Nat) (pair : Json × Json) : Prop :=
  Text.reread (keyName pair.1) = keyName pair.1 ∧ Kept levels pair.2

theorem kept_of_pair? {item : Json} {pair : Json × Json} (hitem : Kept levels item)
    (h : pair? item = some pair) : KeptPair levels pair := by
  unfold pair? at h
  split at h
  · next key value =>
    cases h
    obtain ⟨levels, rfl⟩ : ∃ lower, levels = lower + 1 := by
      cases hitem.bounded with
      | arr => exact ⟨_, rfl⟩
    have hparts := kept_arr_iff.mp hitem
    exact ⟨(hparts key (by simp)).reread_keyName, (hparts value (by simp)).mono⟩
  · next key first value second =>
    cases h
    obtain ⟨levels, rfl⟩ : ∃ lower, levels = lower + 1 := by
      cases hitem.bounded with
      | obj => exact ⟨_, rfl⟩
    have hparts := (kept_obj_iff.mp hitem).2
    exact ⟨(hparts (key, first) (by simp)).1, kept_str_iff.mpr (hparts (value, second) (by simp)).1⟩
  · split at h
    · next key value hletters =>
      cases h
      have hletter (letter : String) (hmem : letter ∈ [key, value]) : Text.reread letter = letter :=
        Text.reread_of_mem_letters (kept_str_iff.mp hitem) (hletters ▸ hmem)
      exact ⟨hletter key (by simp), kept_str_iff.mpr (hletter value (by simp))⟩
    · cases h
  · cases h

theorem kept_of_pairs (hvalue : Kept (levels + 1) value) (h : value.pairs = .ok pairs) :
    ∀ pair ∈ pairs, KeptPair levels pair := by
  cases value with
  | obj =>
    cases h
    intro pair hpair
    obtain ⟨field, hfield, rfl⟩ := List.mem_map.mp hpair
    exact (kept_obj_iff.mp hvalue).2 field hfield
  | arr =>
    have hitems := kept_arr_iff.mp hvalue
    exact forall_pairsFrom (fun item hitem pair hpair _ => kept_of_pair? (hitems item hitem) hpair) h
  | str =>
    refine forall_pairsFrom (fun item hitem pair hpair _ => ?_) h
    obtain ⟨letter, hletter, rfl⟩ := List.mem_map.mp hitem
    have hkept := Text.reread_of_mem_letters (kept_str_iff.mp hvalue) hletter
    exact kept_of_pair? (kept_str_iff.mpr hkept) hpair
  | _ => cases h

theorem table_eq_ok_iff (hvalue : Kept (levels + 1) value) {rows : List (Json × Json)} :
    value.table = .ok rows ↔ ∃ pairs, value.pairs = .ok pairs ∧ rows = putPairs pairs [] := by
  cases value with
  | obj fields =>
    have hrows : putPairs (fields.map fun field => (.str field.1, field.2)) [] =
        fields.map fun field => (.str field.1, field.2) := by
      have hput := putPairs_map fields []
      rwa [Fields.update_nil_of_nodup (kept_obj_iff.mp hvalue).1] at hput
    constructor
    · intro h
      cases h
      exact ⟨_, rfl, hrows.symm⟩
    · rintro ⟨pairs, hpairs, rfl⟩
      cases hpairs
      exact congrArg Except.ok hrows.symm
  | _ =>
    refine bind_eq_ok_iff.trans (exists_congr fun pairs => and_congr_right fun _ => ?_)
    exact ⟨fun h => (Except.ok.inj h).symm, fun h => congrArg Except.ok h.symm⟩

end Json

end Sitecheck
