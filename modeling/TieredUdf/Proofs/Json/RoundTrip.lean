import TieredUdf.Proofs.Json.Lexing

/-! # Reading back what was written

An indented text is read back as the value that it was written for, when the value has no binary
numbers, its integers fit 64 bits, no object has two members of one name and it is no deeper than
what a reader accepts.
-/

namespace TieredUdf.Json

/-! ## Values that are written exactly -/

mutual

/-- Nothing of the value is lost in a text. -/
def Exact : Json → Prop
  | .integer n => Representable n
  | .number _ => False
  | .array items => ExactItems items
  | .object members => (members.map Prod.fst).Nodup ∧ ExactMembers members
  | _ => True

def ExactItems : List Json → Prop
  | [] => True
  | j :: rest => j.Exact ∧ ExactItems rest

def ExactMembers : List (String × Json) → Prop
  | [] => True
  | (_, j) :: rest => j.Exact ∧ ExactMembers rest

end

mutual

/-- How many arrays and objects are open at once while the value is read. -/
def depth : Json → Nat
  | .array items => depthOfItems items + 1
  | .object members => depthOfMembers members + 1
  | _ => 0

def depthOfItems : List Json → Nat
  | [] => 0
  | j :: rest => max j.depth (depthOfItems rest)

def depthOfMembers : List (String × Json) → Nat
  | [] => 0
  | (_, j) :: rest => max j.depth (depthOfMembers rest)

end

/-! ## Its tokens -/

mutual

def tokens : Json → List Token
  | .array items => .openArray :: (tokensOfItems items ++ [.closeArray])
  | .object members => .openObject :: (tokensOfMembers members ++ [.closeObject])
  | j => [.scalar j]

def tokensOfItems : List Json → List Token
  | [] => []
  | [j] => j.tokens
  | j :: rest => j.tokens ++ .comma :: tokensOfItems rest

def tokensOfMembers : List (String × Json) → List Token
  | [] => []
  | [(n, j)] => .scalar (.string n) :: .colon :: j.tokens
  | (n, j) :: rest => .scalar (.string n) :: .colon :: (j.tokens ++ .comma :: tokensOfMembers rest)

end

namespace Lexer

theorem newline_toList (depth : Nat) :
    (newline depth).toList = '\n' :: List.replicate (2 * depth) ' ' := String.toList_ofList

/-- A line break and what closes an array or an object. -/
theorem Reads.close {s : String} {ts us : List Token} (h : Reads s ts) (depth : Nat)
    {bracket : String} (closed : Delimits bracket us) :
    Reads (s ++ newline depth ++ bracket) (ts ++ us) := by
  have line := (delimits_newline depth).append closed.reads
  rw [String.append_assoc]
  refine h.append line ?_ ?_ <;> rw [String.toList_append, newline_toList]
  · intro c hc
    cases hc
    exact ⟨rfl, rfl⟩
  · exact nofun

/-- A comma and what follows it. -/
theorem Reads.comma {s t : String} {ts us : List Token} (h : Reads s ts) (k : Reads t us) :
    Reads (s ++ "," ++ t) (ts ++ .comma :: us) := by
  have rest := delimits_comma.append k
  rw [String.append_assoc]
  refine h.append rest ?_ ?_ <;> rw [String.toList_append]
  · intro c hc
    cases hc
    exact ⟨rfl, rfl⟩
  · exact nofun

theorem reads_member (name : String) {t : String} {ts : List Token} (h : Reads t ts) (depth : Nat) :
    Reads (newline depth ++ renderString name ++ ": " ++ t)
      (.scalar (.string name) :: .colon :: ts) := by
  have value := delimits_colon.append h
  have named := (delimits_string name).append value
  have line := (delimits_newline depth).append named
  simpa [String.append_assoc] using line

end Lexer

open Lexer

mutual

/-- An indented text has the tokens of its value. -/
theorem reads_renderIndented (depth : Nat) :
    ∀ j : Json, j.Exact → Reads (renderIndented depth j) j.tokens
  | .null, _ => reads_null
  | .bool true, _ => reads_true
  | .bool false, _ => reads_false
  | .integer n, plain => by
      have fits : Representable n := by simpa only [Exact] using plain
      simpa only [renderIndented, tokens] using reads_integer fits
  | .string s, _ => (delimits_string s).reads
  | .array [], _ => by
      simpa [renderIndented, tokens, tokensOfItems] using delimits_emptyArray.reads
  | .object [], _ => by
      simpa [renderIndented, tokens, tokensOfMembers] using delimits_emptyObject.reads
  | .array (j :: rest), plain => by
      have items := reads_indentedItems (depth + 1) (j :: rest) plain
      have whole := delimits_openArray.append (items.close depth delimits_closeArray)
      simpa [renderIndented, tokens, String.append_assoc] using whole
  | .object (m :: rest), plain => by
      have members := reads_indentedMembers (depth + 1) (m :: rest) plain.2
      have whole := delimits_openObject.append (members.close depth delimits_closeObject)
      simpa [renderIndented, tokens, String.append_assoc] using whole

theorem reads_indentedItems (depth : Nat) :
    ∀ items : List Json, ExactItems items → Reads (indentedItems depth items) (tokensOfItems items)
  | [], _ => fun _ _ _ => rfl
  | [j], plain => (delimits_newline depth).append (reads_renderIndented depth j plain.1)
  | j :: k :: rest, plain => by
      have first := (delimits_newline depth).append (reads_renderIndented depth j plain.1)
      exact first.comma (reads_indentedItems depth (k :: rest) plain.2)

theorem reads_indentedMembers (depth : Nat) :
    ∀ members : List (String × Json), ExactMembers members →
      Reads (indentedMembers depth members) (tokensOfMembers members)
  | [], _ => fun _ _ _ => rfl
  | [(n, j)], plain => reads_member n (reads_renderIndented depth j plain.1) depth
  | (n, j) :: m :: rest, plain => by
      have first := reads_member n (reads_renderIndented depth j plain.1) depth
      exact first.comma (reads_indentedMembers depth (m :: rest) plain.2)

end

/-! ## Its value -/

namespace Reader

theorem foldlM_cons (r : Reader) (t : Token) (ts : List Token) :
    (t :: ts).foldlM step r = (r.step t).bind fun next => ts.foldlM step next :=
  List.foldlM_cons

/-- The tokens of a value do not begin with the end of an array. -/
theorem tokens_head (j : Json) : ∃ t ts, j.tokens = t :: ts ∧ t ≠ .closeArray := by
  cases j with
  | array items => exact ⟨_, _, rfl, nofun⟩
  | object members => exact ⟨_, _, rfl, nofun⟩
  | _ => exact ⟨_, _, rfl, nofun⟩

theorem step_itemOrClose (frames : List Frame) {t : Token} (h : t ≠ .closeArray) :
    step ⟨frames, .itemOrClose⟩ t = step ⟨frames, .value⟩ t := by
  simp only [step]
  split
  · exact absurd rfl h
  · rfl

/-- The first item of an array is read like any value. -/
theorem read_first (j : Json) (rest : List Json) (frames : List Frame) (after : List Token) :
    (tokensOfItems (j :: rest) ++ after).foldlM step ⟨frames, .itemOrClose⟩ =
      (tokensOfItems (j :: rest) ++ after).foldlM step ⟨frames, .value⟩ := by
  obtain ⟨t, ts, head, other⟩ := tokens_head j
  have first : ∃ more, tokensOfItems (j :: rest) = t :: more := by
    cases rest with
    | nil => exact ⟨ts, head⟩
    | cons k rest => exact ⟨_, congrArg (· ++ _) head⟩
  obtain ⟨more, split⟩ := first
  rw [split, List.cons_append, foldlM_cons, foldlM_cons, step_itemOrClose frames other]

theorem insertMember_fresh (name : String) (value : Json) {members : List (String × Json)}
    (fresh : name ∉ members.map Prod.fst) :
    insertMember name value members = members ++ [(name, value)] := by
  induction members with
  | nil => rfl
  | cons m members ih =>
      rw [List.map_cons, List.mem_cons, not_or] at fresh
      have other : ¬ m.1 = name := fun same => fresh.1 same.symm
      simp [insertMember, other, ih fresh.2]

theorem fresh_of_nodup {name : String} {value : Json} {read rest : List (String × Json)}
    (names : ((read ++ (name, value) :: rest).map Prod.fst).Nodup) :
    name ∉ read.map Prod.fst := by
  rw [List.map_append, List.nodup_append] at names
  intro old
  exact names.2.2 name old name (by simp) rfl

/-- The name of a member and its colon. -/
theorem read_name (name : String) (read : List (String × Json)) (frames : List Frame)
    (after : List Token) :
    (.scalar (.string name) :: .colon :: after).foldlM step ⟨frames, .name read⟩ =
      after.foldlM step ⟨.object read name :: frames, .value⟩ := rfl

/-- The first member of an object is read like every other one. -/
theorem read_firstMember (m : String × Json) (rest read : List (String × Json))
    (frames : List Frame) (after : List Token) :
    (tokensOfMembers (m :: rest) ++ after).foldlM step ⟨frames, .nameOrClose read⟩ =
      (tokensOfMembers (m :: rest) ++ after).foldlM step ⟨frames, .name read⟩ := by
  cases rest <;> rfl

mutual

/-- The tokens of a value are read as the value, at any depth that leaves room for it. -/
theorem read_tokens : ∀ (j : Json) (frames : List Frame) (after : List Token), j.Exact →
    frames.length + j.depth ≤ maxDepth →
    (j.tokens ++ after).foldlM step ⟨frames, .value⟩ = after.foldlM step (complete frames j)
  | .null, _, _, _, _ => rfl
  | .bool _, _, _, _, _ => rfl
  | .integer _, _, _, _, _ => rfl
  | .string _, _, _, _, _ => rfl
  | .array items, frames, after, plain, room => by
      have deeper : frames.length + 1 + depthOfItems items ≤ maxDepth := by
        rw [depth] at room
        omega
      have opened : step ⟨frames, .value⟩ .openArray = some ⟨.array [] :: frames, .itemOrClose⟩ := by
        have below : frames.length < maxDepth := by omega
        simp [step, begin?, below]
      have whole : (Json.array items).tokens ++ after =
          .openArray :: (tokensOfItems items ++ .closeArray :: after) := by
        simp [tokens]
      rw [whole, foldlM_cons, opened]
      match items with
      | [] => rfl
      | j :: rest =>
          have read := read_items (j :: rest) [] frames after plain deeper nofun
          exact (read_first j rest _ _).trans read
  | .object members, frames, after, plain, room => by
      have deeper : frames.length + 1 + depthOfMembers members ≤ maxDepth := by
        rw [depth] at room
        omega
      have opened : step ⟨frames, .value⟩ .openObject = some ⟨frames, .nameOrClose []⟩ := by
        have below : frames.length < maxDepth := by omega
        simp [step, begin?, below]
      have whole : (Json.object members).tokens ++ after =
          .openObject :: (tokensOfMembers members ++ .closeObject :: after) := by
        simp [tokens]
      rw [whole, foldlM_cons, opened]
      match members with
      | [] => rfl
      | m :: rest =>
          have read := read_members (m :: rest) [] frames after plain.2 plain.1 deeper nofun
          exact (read_firstMember m rest [] _ _).trans read

/-- The items of an array are read behind those that were read before. -/
theorem read_items : ∀ (items read : List Json) (frames : List Frame) (after : List Token),
    ExactItems items → frames.length + 1 + depthOfItems items ≤ maxDepth → items ≠ [] →
    (tokensOfItems items ++ .closeArray :: after).foldlM step ⟨.array read :: frames, .value⟩ =
      after.foldlM step (complete frames (.array (read.reverse ++ items)))
  | [], _, _, _, _, _, given => absurd rfl given
  | [j], read, frames, after, plain, room, _ => by
      have inside : frames.length + 1 + j.depth ≤ maxDepth := by
        simp only [depthOfItems] at room
        omega
      have item := read_tokens j (.array read :: frames) (.closeArray :: after) plain.1 inside
      rw [tokensOfItems, item, foldlM_cons]
      simp [complete, step]
  | j :: k :: rest, read, frames, after, plain, room, _ => by
      have inside : frames.length + 1 + j.depth ≤ maxDepth := by
        rw [depthOfItems] at room
        omega
      have others : frames.length + 1 + depthOfItems (k :: rest) ≤ maxDepth := by
        rw [depthOfItems] at room
        omega
      have item := read_tokens j (.array read :: frames)
        (.comma :: (tokensOfItems (k :: rest) ++ .closeArray :: after)) plain.1 inside
      have behind := read_items (k :: rest) (j :: read) frames after plain.2 others nofun
      have split : tokensOfItems (j :: k :: rest) ++ .closeArray :: after =
          j.tokens ++ .comma :: (tokensOfItems (k :: rest) ++ .closeArray :: after) := by
        simp [tokensOfItems]
      rw [split, item, foldlM_cons]
      refine behind.trans ?_
      rw [List.reverse_cons, List.append_assoc, List.singleton_append]

/-- The members of an object are read behind those that were read before. -/
theorem read_members : ∀ (members read : List (String × Json)) (frames : List Frame)
    (after : List Token), ExactMembers members → ((read ++ members).map Prod.fst).Nodup →
    frames.length + 1 + depthOfMembers members ≤ maxDepth → members ≠ [] →
    (tokensOfMembers members ++ .closeObject :: after).foldlM step ⟨frames, .name read⟩ =
      after.foldlM step (complete frames (.object (read ++ members)))
  | [], _, _, _, _, _, _, given => absurd rfl given
  | [(n, j)], read, frames, after, plain, names, room, _ => by
      have inside : frames.length + 1 + j.depth ≤ maxDepth := by
        simp only [depthOfMembers] at room
        omega
      have value := read_tokens j (.object read n :: frames) (.closeObject :: after) plain.1 inside
      have added := insertMember_fresh n j (fresh_of_nodup names)
      rw [tokensOfMembers, List.cons_append, List.cons_append, read_name, value, foldlM_cons]
      simp [complete, step, added]
  | (n, j) :: m :: rest, read, frames, after, plain, names, room, _ => by
      have inside : frames.length + 1 + j.depth ≤ maxDepth := by
        rw [depthOfMembers] at room
        omega
      have others : frames.length + 1 + depthOfMembers (m :: rest) ≤ maxDepth := by
        rw [depthOfMembers] at room
        omega
      have value := read_tokens j (.object read n :: frames)
        (.comma :: (tokensOfMembers (m :: rest) ++ .closeObject :: after)) plain.1 inside
      have added := insertMember_fresh n j (fresh_of_nodup names)
      have regrouped : read ++ [(n, j)] ++ m :: rest = read ++ (n, j) :: m :: rest := by simp
      have behind := read_members (m :: rest) (read ++ [(n, j)]) frames after plain.2
        (by rwa [regrouped]) others nofun
      have split : tokensOfMembers ((n, j) :: m :: rest) ++ .closeObject :: after =
          .scalar (.string n) :: .colon ::
            (j.tokens ++ .comma :: (tokensOfMembers (m :: rest) ++ .closeObject :: after)) := by
        simp [tokensOfMembers]
      have next : complete (.object read n :: frames) j =
          ⟨.object (read ++ [(n, j)]) n :: frames, .commaOrClose⟩ := by
        rw [complete, added]
      rw [split, read_name, value, foldlM_cons, next]
      refine behind.trans ?_
      rw [regrouped]

end

end Reader

theorem tokens?_pretty {j : Json} (plain : j.Exact) : tokens? j.pretty.toList = some j.tokens :=
  (reads_renderIndented 0 j plain).tokens?

/-- A value that loses nothing in a text is read back from its indented text. -/
theorem parse?_pretty {j : Json} (plain : j.Exact) (shallow : j.depth ≤ Reader.maxDepth) :
    parse? j.pretty = some j := by
  have read := Reader.read_tokens j [] [] plain (by simpa using shallow)
  rw [List.append_nil] at read
  rw [parse?, tokens?_pretty plain]
  change (j.tokens.foldlM Reader.step Reader.initial).bind Reader.finish = some j
  unfold Reader.initial
  rw [read]
  rfl

end TieredUdf.Json
