/-
# JSON that is written is read back

Between a value and its document stand its tokens (`tokens`).  They do not depend on the layout,
and the two halves of the round trip meet there:

* the scanner cuts the document of a value into these tokens, in either layout and at any depth
  (`scan_write`);
* the reader puts the value together from them, inside whatever containers are open
  (`foldlM_tokens`).

The second half holds of every value.  The first one asks that the numbers are whole ones in
decimal (`Whole`), since a value may hold any text in the place of a numeral.  So a value with
whole numbers is what its document reads as (`Whole.read?_write`).
-/
import OneBit.Json.Reader
import OneBit.Proofs.Json.Scanning

namespace OneBit.Json

/-! ## 1. The tokens of a value -/

mutual

/-- The tokens that a value is written with. -/
def tokens : Json → List Token
  | .string s => [.text s]
  | .array [] => [.openArray, .closeArray]
  | .array (v :: vs) => .openArray :: tokens v ++ (itemTokens vs ++ [.closeArray])
  | .object [] => [.openObject, .closeObject]
  | .object ((k, v) :: ms) =>
    .openObject :: .text k :: .colon :: tokens v ++ (memberTokens ms ++ [.closeObject])
  | v => [.atom v]

/-- The tokens of the items after the first one. -/
def itemTokens : List Json → List Token
  | [] => []
  | v :: vs => .comma :: tokens v ++ itemTokens vs

/-- The tokens of the members after the first one. -/
def memberTokens : List (Option String × Json) → List Token
  | [] => []
  | (k, v) :: ms => .comma :: .text k :: .colon :: tokens v ++ memberTokens ms

end

/-! ## 2. From the tokens to the value -/

/-- The state after some more tokens. -/
def State.steps (st : State) (ts : List Token) : Option State := ts.foldlM State.step st

theorem steps_append (st : State) (ts us : List Token) :
    st.steps (ts ++ us) = (st.steps ts).bind fun st' => st'.steps us :=
  List.foldlM_append

/-- No value starts with the end of an array: where the first item of an array may come, a value
is read as an item. -/
theorem steps_firstItem (v : Json) (ts : List Token) (stack : List Frame) :
    (State.firstItem stack).steps (v.tokens ++ ts) =
      (State.value (.items [] :: stack)).steps (v.tokens ++ ts) := by
  cases v with
  | array vs => cases vs <;> rfl
  | object ms => cases ms <;> rfl
  | _ => rfl

mutual

/-- **The reader puts a value together from its tokens.** -/
theorem steps_tokens (v : Json) (stack : List Frame) :
    (State.value stack).steps v.tokens = some (.after v stack) := by
  match v with
  | .null | .bool _ | .number _ | .string _ | .array [] | .object [] => rfl
  | .array (v :: vs) =>
    calc (State.value stack).steps (tokens (.array (v :: vs)))
        = (State.firstItem stack).steps (v.tokens ++ (itemTokens vs ++ [.closeArray])) := rfl
      _ = some (.after (.array (v :: vs)) stack) := by
          rw [steps_firstItem, steps_append, steps_tokens v]
          exact steps_itemTokens vs v [] stack
  | .object ((k, v) :: ms) =>
    calc (State.value stack).steps (tokens (.object ((k, v) :: ms)))
        = (State.value (.members [] k :: stack)).steps
            (v.tokens ++ (memberTokens ms ++ [.closeObject])) := rfl
      _ = some (.after (.object ((k, v) :: ms)) stack) := by
          rw [steps_append, steps_tokens v]
          exact steps_memberTokens ms k v [] stack

/-- An array goes on with its items, and then ends. -/
theorem steps_itemTokens (vs : List Json) (v : Json) (done : List Json) (stack : List Frame) :
    (State.after v (.items done :: stack)).steps (itemTokens vs ++ [.closeArray]) =
      some (.after (.array ((v :: done).reverse ++ vs)) stack) := by
  match vs with
  | [] => rw [List.append_nil]; rfl
  | w :: vs =>
    calc (State.after v (.items done :: stack)).steps (itemTokens (w :: vs) ++ [.closeArray])
        = (State.value (.items (v :: done) :: stack)).steps
            (w.tokens ++ (itemTokens vs ++ [.closeArray])) := by
          rw [itemTokens, List.append_assoc]; rfl
      _ = some (.after (.array ((w :: v :: done).reverse ++ vs)) stack) := by
          rw [steps_append, steps_tokens w]
          exact steps_itemTokens vs w (v :: done) stack
      _ = some (.after (.array ((v :: done).reverse ++ w :: vs)) stack) := by
          rw [List.reverse_cons, List.append_assoc, List.singleton_append]

/-- An object goes on with its members, and then ends. -/
theorem steps_memberTokens (ms : List (Option String × Json)) (k : Option String) (v : Json)
    (done : List (Option String × Json)) (stack : List Frame) :
    (State.after v (.members done k :: stack)).steps (memberTokens ms ++ [.closeObject]) =
      some (.after (.object (((k, v) :: done).reverse ++ ms)) stack) := by
  match ms with
  | [] => rw [List.append_nil]; rfl
  | (j, w) :: ms =>
    calc (State.after v (.members done k :: stack)).steps
            (memberTokens ((j, w) :: ms) ++ [.closeObject])
        = (State.value (.members ((k, v) :: done) j :: stack)).steps
            (w.tokens ++ (memberTokens ms ++ [.closeObject])) := by
          rw [memberTokens, List.append_assoc]; rfl
      _ = some (.after (.object (((j, w) :: (k, v) :: done).reverse ++ ms)) stack) := by
          rw [steps_append, steps_tokens w]
          exact steps_memberTokens ms j w ((k, v) :: done) stack
      _ = some (.after (.object (((k, v) :: done).reverse ++ (j, w) :: ms)) stack) := by
          rw [List.reverse_cons, List.append_assoc, List.singleton_append]

end

theorem ofTokens?_tokens (v : Json) : ofTokens? v.tokens = some v :=
  congrArg (fun st => st.bind State.value?) (steps_tokens v [])

/-! ## 3. From the document to the tokens -/

/-- All numbers in a value are whole ones, written in decimal. -/
inductive Whole : Json → Prop
  | null : Whole .null
  | bool (b : Bool) : Whole (.bool b)
  | nat (n : Nat) : Whole (nat n)
  | string (s : Option String) : Whole (.string s)
  | array {items : List Json} (h : ∀ v ∈ items, Whole v) : Whole (.array items)
  | object {members : List (Option String × Json)} (h : ∀ m ∈ members, Whole m.2) :
    Whole (.object members)

/-- In front of any text that no number goes on with, the scanner cuts `s` into the tokens `ts`. -/
def ScansAs (s : List Char) (ts : List Token) : Prop :=
  ∀ rest, EndsNumber rest → scan (s ++ rest) = (scan rest).map (ts ++ ·)

section Layouts

variable (l : Layout) (depth : Nat)

theorem isGap_of_mem_lineBreak {c : Char} (h : c ∈ l.lineBreak depth) : isGap c = true := by
  cases l with
  | compact => cases h
  | indented =>
    obtain rfl | hspace := List.mem_cons.mp h
    · rfl
    · rw [List.eq_of_mem_replicate hspace]
      rfl

theorem scan_lineBreak (s : List Char) : scan (l.lineBreak depth ++ s) = scan s :=
  scan_gap (fun _ => isGap_of_mem_lineBreak l depth) s

theorem scan_colon (s : List Char) : scan (l.colon ++ s) = (scan s).map (.colon :: ·) := by
  cases l with
  | compact => exact scan_token rfl rfl
  | indented =>
    refine (scan_token (s := ' ' :: s) rfl rfl).trans ?_
    rw [← List.singleton_append, scan_gap (by simp [isGap])]

/-- No number goes on with a line break. -/
theorem endsNumber_lineBreak {rest : List Char} (h : EndsNumber rest) :
    EndsNumber (l.lineBreak depth ++ rest) := by
  cases l with
  | compact => exact h
  | indented => exact endsNumber_cons rfl _

/-- No number goes on with an item or a member after the first one. -/
theorem endsNumber_writeItems (vs : List Json) {rest : List Char} (h : EndsNumber rest) :
    EndsNumber (writeItems l depth vs ++ rest) := by
  cases vs with
  | nil => exact h
  | cons v vs => exact endsNumber_cons rfl _

theorem endsNumber_writeMembers (ms : List (Option String × Json)) {rest : List Char}
    (h : EndsNumber rest) : EndsNumber (writeMembers l depth ms ++ rest) := by
  cases ms with
  | nil => exact h
  | cons m ms => exact endsNumber_cons rfl _

theorem scansAs_writeItems {vs : List Json}
    (h : ∀ v ∈ vs, ScansAs (write l depth v) v.tokens) :
    ScansAs (writeItems l depth vs) (itemTokens vs) := by
  intro rest hrest
  induction vs with
  | nil => simp [writeItems, itemTokens]
  | cons v vs ih =>
    obtain ⟨hv, hvs⟩ := List.forall_mem_cons.mp h
    have hnext := endsNumber_writeItems l depth vs hrest
    simp only [writeItems, List.cons_append, List.append_assoc]
    rw [scan_token rfl rfl, scan_lineBreak, hv _ hnext, ih hvs]
    simp [itemTokens, Function.comp_def]

theorem scansAs_writeMembers {ms : List (Option String × Json)}
    (h : ∀ m ∈ ms, ScansAs (write l depth m.2) m.2.tokens) :
    ScansAs (writeMembers l depth ms) (memberTokens ms) := by
  intro rest hrest
  induction ms with
  | nil => simp [writeMembers, memberTokens]
  | cons m ms ih =>
    obtain ⟨hv, hms⟩ := List.forall_mem_cons.mp h
    have hnext := endsNumber_writeMembers l depth ms hrest
    simp only [writeMembers, List.cons_append, List.append_assoc]
    rw [scan_token rfl rfl, scan_lineBreak, scan_quoted, scan_colon, hv _ hnext, ih hms]
    simp [memberTokens, Function.comp_def]

/-- **A value is scanned as its tokens**, in both layouts and at any depth. -/
theorem Whole.scansAs_write {v : Json} (h : Whole v) :
    ScansAs (write l depth v) v.tokens := by
  induction h generalizing depth with
  | null => exact fun rest _ => scan_token rfl rfl
  | bool b => cases b <;> exact fun rest _ => scan_token rfl rfl
  | nat n => exact fun rest hrest => scan_toString n hrest
  | string s => exact fun rest _ => scan_quoted s rest
  | @array vs _ ih =>
    intro rest _
    cases vs with
    | nil =>
      simp only [write, tokens, List.cons_append, List.nil_append]
      rw [scan_token rfl rfl, scan_token rfl rfl, Option.map_map]
      rfl
    | cons v vs =>
      obtain ⟨hv, hvs⟩ := List.forall_mem_cons.mp ih
      have hend : EndsNumber (l.lineBreak depth ++ ']' :: rest) :=
        endsNumber_lineBreak l depth (endsNumber_cons rfl _)
      have hitems := scansAs_writeItems l (depth + 1) fun v hmem => hvs v hmem (depth + 1)
      simp only [write, List.cons_append, List.nil_append, List.append_assoc]
      rw [scan_token rfl rfl, scan_lineBreak, hv _ _ (endsNumber_writeItems _ _ _ hend),
        hitems _ hend, scan_lineBreak, scan_token rfl rfl]
      simp [tokens, Function.comp_def]
  | @object ms _ ih =>
    intro rest _
    cases ms with
    | nil =>
      simp only [write, tokens, List.cons_append, List.nil_append]
      rw [scan_token rfl rfl, scan_token rfl rfl, Option.map_map]
      rfl
    | cons m ms =>
      obtain ⟨hv, hms⟩ := List.forall_mem_cons.mp ih
      have hend : EndsNumber (l.lineBreak depth ++ '\x7d' :: rest) :=
        endsNumber_lineBreak l depth (endsNumber_cons rfl _)
      have hmembers := scansAs_writeMembers l (depth + 1) fun m hmem => hms m hmem (depth + 1)
      simp only [write, List.cons_append, List.nil_append, List.append_assoc]
      rw [scan_token rfl rfl, scan_lineBreak, scan_quoted, scan_colon,
        hv _ _ (endsNumber_writeMembers _ _ _ hend), hmembers _ hend, scan_lineBreak,
        scan_token rfl rfl]
      simp [tokens, Function.comp_def]

end Layouts

/-! ## 4. The round trip -/

/-- **A value with whole numbers is what its document reads as**, in both layouts and at any
depth. -/
theorem Whole.read?_write {v : Json} (h : Whole v) (l : Layout) (depth : Nat) :
    read? (String.ofList (write l depth v)) = some v := by
  have hscan : scan (write l depth v) = some v.tokens := by
    have hwrite := h.scansAs_write l depth [] endsNumber_nil
    rw [List.append_nil, scan_nil, Option.map_some, List.append_nil] at hwrite
    exact hwrite
  rw [read?, String.toList_ofList, hscan, Option.bind_some, ofTokens?_tokens]

end OneBit.Json
