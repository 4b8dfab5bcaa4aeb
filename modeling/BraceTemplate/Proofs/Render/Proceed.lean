/-
# BraceTemplate.Proofs.Render.Proceed — the step of a run in the middle of nodes

`Midway.proceeds` is the step lemma: whatever operation stands at the position of a run in the
middle of nodes, running it leads to the middle of the same nodes again, at a position behind their
beginning, with the rest of what remains still to be done; or it fails as that does. It is never a
fault.

There is one lemma for each operation that begins or ends a node (`exec_…`), and inside a construct
what follows in its body follows for the construct (`Follows.inside`).
-/
import BraceTemplate.Proofs.Render.Midway

namespace BraceTemplate.Machine

set_option autoImplicit false

section

variable {env : Env} {template : String} {active : List String} {base locals : Dict Value}
  {start ip : Nat} {nodes rest : List Node} {node : Node} {slots : List Slot} {todo : Completion}

/-! ## What remains to be done -/

theorem ahead_cons (output : String) :
    ahead env template active base start (node :: rest) output =
      node.meaning env template active base start output >>=
        ahead env template active base (start + node.size) rest := by
  rw [ahead, meaningAll]
  cases node.meaning env template active base start output <;> rfl

theorem meaning_loop {items : List Value} {line endLine : Nat} {item : String} {collection : Expr}
    {body : List Node} {output : String} (resolved : env.items base collection = .ok items) :
    (Node.loop line item collection body endLine).meaning env template active base start output =
      rounds env template active base start item body items.zipIdx output := by
  rw [Node.meaning, resolved]
  rfl

theorem rounds_cons (item : String) (body : List Node) (v : Value) (index : Nat)
    (items : List (Value × Nat)) (output : String) :
    rounds env template active base start item body ((v, index) :: items) output =
      ahead env template active (bindItem base item v index) (start + 1) body output >>=
        rounds env template active base start item body items := rfl

/-- The rounds from one position on begin with the item at that position. -/
theorem zipIdx_drop {items : List Value} {index : Nat} {v : Value}
    (current : items[index]? = some v) :
    items.zipIdx.drop index = (v, index) :: items.zipIdx.drop (index + 1) := by
  obtain ⟨bound, found⟩ := List.getElem?_eq_some_iff.1 current
  rw [List.drop_eq_getElem_cons (by simpa using bound), List.getElem_zipIdx, Nat.zero_add, found]

/-! ## One operation -/

/-- What may follow when a run in the middle of nodes, with slots of constructs around them, runs
the operation at its position: the run is in the middle of the same nodes, behind their beginning;
or it enters the replacement of a block and will be when it goes on; or it fails. What remains to be
done changes by what was done. -/
def Follows (env : Env) (template : String) (active : List String) (base : Dict Value) (start : Nat)
    (nodes : List Node) (outer slots : List Slot) (locals : Dict Value) (todo : Completion)
    (output : String) (line ip : Nat) : Move → Prop
  | .go ip' slots' locals' added =>
      ∃ (inner : List Slot) (todo' : Completion),
        slots' = outer ++ inner ∧ inner.length = slots.length ∧ start < ip' ∧
          Midway env template active base start nodes ip' inner locals' todo' ∧
          todo output = todo' (output ++ added)
  | .enter name body resume =>
      env.override? active name = some body ∧ start < resume ∧
        ∃ todo' : Completion,
          Midway env template active base start nodes resume slots locals todo' ∧
            todo output =
              ahead env body.template.name (name :: active) locals body.start body.nodes output >>=
                todo'
  | .fail cause => todo output = .error ⟨template, ip, line, cause⟩
  | .fault _ => False

theorem withSlot_append (outer slots : List Slot) (old new : Slot) (k : List Slot → Move) :
    withSlot (outer ++ old :: slots) outer.length new k = k (outer ++ new :: slots) := by
  have bound : outer.length < (outer ++ old :: slots).length := by
    simp only [List.length_append, List.length_cons]
    omega
  rw [withSlot, if_pos bound, List.set_append_right _ _ (Nat.le_refl _), Nat.sub_self,
    List.set_cons_zero]

theorem getElem?_slot (outer slots : List Slot) (own : Slot) :
    (outer ++ own :: slots)[outer.length]? = some own := by
  rw [List.getElem?_append_right (Nat.le_refl _), Nat.sub_self, List.getElem?_cons_zero]

theorem jump_forward {ip target : Nat} (forward : ip < target) (locals : Dict Value)
    (slots : List Slot) : jump ip locals target slots = .go target slots locals "" := by
  rw [jump, if_pos forward]

/-! ### In front of a node -/

section Front

variable {outer : List Slot} {free line elseLine endLine : Nat} {output : String}
  {condition collection expr : Expr} {name item s : String} {arguments : List (String × Expr)}
  {yes no body : List Node}

theorem exec_text :
    Follows env template active base start (.text line s :: rest) outer
      (List.replicate free .empty) base
      (ahead env template active base start (.text line s :: rest)) output line start
      (exec env active start (outer ++ List.replicate free .empty) base output (.text s)) := by
  simp only [exec, Follows]
  refine ⟨List.replicate free .empty, _, rfl, rfl, by omega, .behind (.front ..), ?_⟩
  rw [ahead_cons, Node.meaning]
  rfl

theorem exec_output :
    Follows env template active base start (.output line expr :: rest) outer
      (List.replicate free .empty) base
      (ahead env template active base start (.output line expr :: rest)) output line start
      (exec env active start (outer ++ List.replicate free .empty) base output (.output expr)) := by
  simp only [exec]
  split
  · rename_i added written
    refine ⟨List.replicate free .empty, _, rfl, rfl, by omega, .behind (.front ..), ?_⟩
    rw [ahead_cons, Node.meaning, written]
    rfl
  · rename_i cause failed
    rw [Follows, ahead_cons, Node.meaning, failed]
    rfl

theorem exec_call :
    Follows env template active base start (.call line name arguments :: rest) outer
      (List.replicate free .empty) base
      (ahead env template active base start (.call line name arguments :: rest)) output line start
      (exec env active start (outer ++ List.replicate free .empty) base output
        (.call name arguments)) := by
  simp only [exec]
  split
  · rename_i added written
    refine ⟨List.replicate free .empty, _, rfl, rfl, by omega, .behind (.front ..), ?_⟩
    rw [ahead_cons, Node.meaning, written]
    rfl
  · rename_i cause failed
    rw [Follows, ahead_cons, Node.meaning, failed]
    rfl

theorem exec_ifThen :
    Follows env template active base start (.ifThen line condition yes endLine :: rest) outer
      (List.replicate (free + 1) .empty) base
      (ahead env template active base start (.ifThen line condition yes endLine :: rest)) output
      line start
      (exec env active start (outer ++ List.replicate (free + 1) .empty) base output
        (.beginIf condition outer.length none (start + 1 + sizes yes))) := by
  simp only [exec, List.replicate_succ, withSlot_append]
  split
  · rename_i taken holds
    cases taken with
    | true =>
        rw [if_pos rfl, jump_forward (by omega)]
        refine ⟨.branch true :: List.replicate free .empty, _, rfl, by simp, by omega,
          .inThen (.front ..), ?_⟩
        rw [ahead_cons, Node.meaning, holds, String.append_empty]
        rfl
    | false =>
        rw [if_neg (by decide), jump_forward (by omega)]
        refine ⟨.branch false :: List.replicate free .empty, _, rfl, by simp, by omega,
          .notTaken .., ?_⟩
        rw [ahead_cons, Node.meaning, holds, String.append_empty]
        rfl
  · rename_i cause failed
    rw [Follows, ahead_cons, Node.meaning, failed]
    rfl

theorem exec_ifElse :
    Follows env template active base start (.ifElse line condition yes elseLine no endLine :: rest)
      outer (List.replicate (free + 1) .empty) base
      (ahead env template active base start
        (.ifElse line condition yes elseLine no endLine :: rest)) output line start
      (exec env active start (outer ++ List.replicate (free + 1) .empty) base output
        (.beginIf condition outer.length (some (start + 1 + sizes yes))
          (start + 1 + sizes yes + 1 + sizes no))) := by
  simp only [exec, List.replicate_succ, withSlot_append]
  split
  · rename_i taken holds
    cases taken with
    | true =>
        rw [if_pos rfl, jump_forward (by omega)]
        refine ⟨.branch true :: List.replicate free .empty, _, rfl, by simp, by omega,
          .inYes (.front ..), ?_⟩
        rw [ahead_cons, Node.meaning, holds, String.append_empty]
        rfl
    | false =>
        rw [if_neg (by decide), jump_forward (by omega)]
        refine ⟨.branch false :: List.replicate free .empty, _, rfl, by simp, by omega,
          .inNo (.front ..), ?_⟩
        rw [ahead_cons, Node.meaning, holds, String.append_empty]
        rfl
  · rename_i cause failed
    rw [Follows, ahead_cons, Node.meaning, failed]
    rfl

theorem exec_beginFor_nil {endAt : Nat} (resolved : env.items base collection = .ok [])
    (forward : start ≤ endAt) :
    exec env active start (outer ++ List.replicate (free + 1) .empty) base output
        (.beginFor item collection outer.length endAt) =
      .go (endAt + 1) (outer ++ List.replicate (free + 1) .empty) base "" := by
  simp only [exec, resolved, beginLoop, List.replicate_succ, withSlot_append]
  exact jump_forward (Nat.lt_succ_of_le forward) _ _

theorem exec_beginFor_cons {v : Value} {items : List Value} {endAt : Nat}
    (resolved : env.items base collection = .ok (v :: items)) :
    exec env active start (outer ++ List.replicate (free + 1) .empty) base output
        (.beginFor item collection outer.length endAt) =
      .go (start + 1)
        (outer ++ .loop ⟨item, v :: items, 0, base.find? item, base.find? (indexName item),
          start + 1⟩ :: List.replicate free .empty)
        (bindItem base item v 0) "" := by
  simp only [exec, resolved, beginLoop, List.replicate_succ, withSlot_append]

/-- A loop over no items is behind at once; any other begins with its first item. -/
theorem exec_loop :
    Follows env template active base start (.loop line item collection body endLine :: rest) outer
      (List.replicate (free + 1) .empty) base
      (ahead env template active base start (.loop line item collection body endLine :: rest))
      output line start
      (exec env active start (outer ++ List.replicate (free + 1) .empty) base output
        (.beginFor item collection outer.length (start + 1 + sizes body))) := by
  cases resolved : env.items base collection with
  | ok items =>
      cases items with
      | nil =>
          rw [exec_beginFor_nil resolved (by omega)]
          refine ⟨List.replicate (free + 1) .empty, _, rfl, rfl, by omega,
            .passed (free + 1) (by simp only [Node.size]; omega), ?_⟩
          rw [ahead_cons, meaning_loop resolved, String.append_empty]
          rfl
      | cons v items =>
          rw [exec_beginFor_cons resolved]
          refine ⟨_, _, rfl, by simp, by omega,
            .inLoop ⟨rfl, rfl, resolved, rfl, rfl, rfl⟩ (.front ..), ?_⟩
          rw [ahead_cons, meaning_loop resolved, List.zipIdx_cons, rounds_cons, bind_assoc,
            String.append_empty]
          rfl
  | error cause =>
      simp only [exec, resolved]
      rw [Follows, ahead_cons, Node.meaning, resolved]
      rfl

/-- A block is replaced if it can be, and run by its own body otherwise. -/
theorem exec_block :
    Follows env template active base start (.block line name body endLine :: rest) outer
      (List.replicate (free + 1) .empty) base
      (ahead env template active base start (.block line name body endLine :: rest)) output line
      start
      (exec env active start (outer ++ List.replicate (free + 1) .empty) base output
        (.beginBlock name (start + 1 + sizes body))) := by
  simp only [exec]
  split
  · rename_i own
    refine ⟨.empty :: List.replicate free .empty, _, rfl, by simp, by omega,
      .inBlock (.front ..), ?_⟩
    rw [ahead_cons]
    simp only [Node.meaning_block_of_none own, String.append_empty]
    rfl
  · rename_i o chosen
    rw [if_pos (by omega)]
    refine ⟨chosen, by omega, _, .passed (free + 1) (by simp only [Node.size]; omega), ?_⟩
    rw [ahead_cons]
    simp only [Node.meaning_block_of_some chosen]
    rfl

end Front

/-! ### At the end of a construct -/

section End

variable {outer : List Slot} {free line : Nat} {output : String}

theorem exec_endIf (b : Bool) (last : ip + 1 = start + node.size) (before : start ≤ ip) :
    Follows env template active base start (node :: rest) outer
      (.branch b :: List.replicate free .empty) base
      (ahead env template active base (start + node.size) rest) output line ip
      (exec env active ip (outer ++ .branch b :: List.replicate free .empty) base output
        (.endIf outer.length)) := by
  simp only [exec, withSlot_append]
  refine ⟨.empty :: List.replicate free .empty, _, rfl, rfl, by omega,
    .passed (free + 1) last, ?_⟩
  rw [String.append_empty]

theorem exec_endBlock (last : ip + 1 = start + node.size) (before : start ≤ ip) :
    Follows env template active base start (node :: rest) outer
      (.empty :: List.replicate free .empty) base
      (ahead env template active base (start + node.size) rest) output line ip
      (exec env active ip (outer ++ .empty :: List.replicate free .empty) base output
        .endBlock) := by
  simp only [exec]
  refine ⟨.empty :: List.replicate free .empty, _, rfl, rfl, by omega,
    .passed (free + 1) last, ?_⟩
  rw [String.append_empty]

theorem exec_orElse {lineIf elseLine endLine : Nat} {condition : Expr} {yes no : List Node} :
    Follows env template active base start
      (.ifElse lineIf condition yes elseLine no endLine :: rest) outer
      (.branch true :: List.replicate free .empty) base
      (ahead env template active base (start + (sizes yes + sizes no + 3)) rest) output line
      (start + 1 + sizes yes)
      (exec env active (start + 1 + sizes yes) (outer ++ .branch true :: List.replicate free .empty)
        base output (.orElse outer.length (start + 1 + sizes yes + 1 + sizes no))) := by
  simp only [exec, getElem?_slot]
  rw [jump_forward (by omega)]
  refine ⟨_, _, rfl, rfl, by omega, .jumped .., ?_⟩
  rw [String.append_empty]

section Loop

variable {lineFor endLine : Nat} {item : String} {collection : Expr} {body : List Node}
  {l : Loop} {v : Value}

theorem exec_endFor_next {w : Value} (runs : l.Runs env base start item collection v)
    (ordered : base.Ascending) (le : start < ip) (next : l.items[l.index + 1]? = some w) :
    exec env active ip (outer ++ .loop l :: List.replicate free .empty)
        (bindItem base item v l.index) output (.endFor outer.length (start + 1)) =
      .go (start + 1)
        (outer ++ .loop { l with index := l.index + 1 } :: List.replicate free .empty)
        (bindItem base item w (l.index + 1)) "" := by
  obtain ⟨rfl, bodyAt, -, -, -, -⟩ := runs
  simp only [exec, getElem?_slot, endLoop, withSlot_append, next]
  rw [if_pos ⟨bodyAt, by omega, by omega⟩, bindItem_bindItem ordered]

theorem exec_endFor_last (runs : l.Runs env base start item collection v)
    (ordered : base.Ascending) (le : start < ip) (last : l.items[l.index + 1]? = none) :
    exec env active ip (outer ++ .loop l :: List.replicate free .empty)
        (bindItem base item v l.index) output (.endFor outer.length (start + 1)) =
      .go (ip + 1) (outer ++ .empty :: List.replicate free .empty) base "" := by
  obtain ⟨rfl, bodyAt, -, -, savedItem, savedIndex⟩ := runs
  simp only [exec, getElem?_slot, endLoop, withSlot_append, last]
  rw [if_pos ⟨bodyAt, by omega, by omega⟩,
    unbindItem_bindItem ordered v l.index savedItem savedIndex]

theorem Loop.Runs.next {w : Value} (runs : l.Runs env base start item collection v)
    (next : l.items[l.index + 1]? = some w) :
    Loop.Runs env base start item collection { l with index := l.index + 1 } w :=
  { runs with current := next }

/-- At its end a loop goes on with the next item, or is over and has restored what its names were
bound to. -/
theorem exec_endFor (runs : l.Runs env base start item collection v) (ordered : base.Ascending) :
    Follows env template active base start (.loop lineFor item collection body endLine :: rest)
      outer (.loop l :: List.replicate free .empty) (bindItem base item v l.index)
      (rounds env template active base start item body (l.items.zipIdx.drop (l.index + 1)) >=>
        ahead env template active base (start + (sizes body + 2)) rest) output line
      (start + 1 + sizes body)
      (exec env active (start + 1 + sizes body) (outer ++ .loop l :: List.replicate free .empty)
        (bindItem base item v l.index) output (.endFor outer.length (start + 1))) := by
  cases more : l.items[l.index + 1]? with
  | some w =>
      rw [exec_endFor_next runs ordered (by omega) more]
      refine ⟨_, _, rfl, rfl, by omega, .inLoop (runs.next more) (.front ..), ?_⟩
      rw [zipIdx_drop more, String.append_empty]
      change (rounds env template active base start item body _ output >>= _) = _
      rw [rounds_cons, bind_assoc]
      rfl
  | none =>
      rw [exec_endFor_last runs ordered (by omega) more]
      refine ⟨.empty :: List.replicate free .empty, _, rfl, rfl, by omega,
        .passed (free + 1) (by simp only [Node.size]; omega), ?_⟩
      have none_left : l.items.zipIdx.drop (l.index + 1) = [] :=
        List.drop_eq_nil_of_le (by simpa using List.getElem?_eq_none_iff.1 more)
      rw [none_left, String.append_empty]
      rfl

end Loop

end End

/-! ### Anywhere -/

section Inside

variable {outer slots : List Slot} {line : Nat} {output : String} {move : Move}

/-- What follows inside a construct follows in the row of nodes that it begins. -/
theorem Follows.inside {base' : Dict Value} {start' : Nat} {nodes' : List Node} {own : Slot}
    {after : Completion} (le : start ≤ start')
    (lift : ∀ {ip : Nat} {slots : List Slot} {locals : Dict Value} {todo : Completion},
      Midway env template active base' start' nodes' ip slots locals todo →
        Midway env template active base start nodes ip (own :: slots) locals (todo >=> after))
    (follows : Follows env template active base' start' nodes' (outer ++ [own]) slots locals todo
      output line ip move) :
    Follows env template active base start nodes outer (own :: slots) locals (todo >=> after) output
      line ip move := by
  cases move with
  | go ip' slots' locals' added =>
      obtain ⟨inner, todo', rfl, length, later, mid, same⟩ := follows
      refine ⟨own :: inner, todo' >=> after, by simp, by simp [length], by omega, lift mid, ?_⟩
      exact congrArg (· >>= after) same
  | enter name body resume =>
      obtain ⟨chosen, later, todo', mid, same⟩ := follows
      refine ⟨chosen, by omega, todo' >=> after, lift mid, ?_⟩
      change todo output >>= after = _
      rw [same, bind_assoc]
      rfl
  | fail cause =>
      change todo output >>= after = _
      rw [show todo output = _ from follows]
      rfl
  | fault f => exact follows

/-- What follows behind the first node of a row follows in the row. -/
theorem Follows.behind
    (follows : Follows env template active base (start + node.size) rest outer slots locals todo
      output line ip move) :
    Follows env template active base start (node :: rest) outer slots locals todo output line ip
      move := by
  cases move with
  | go ip' slots' locals' added =>
      obtain ⟨inner, todo', shape, length, later, mid, same⟩ := follows
      exact ⟨inner, todo', shape, length, by omega, .behind mid, same⟩
  | enter name body resume =>
      obtain ⟨chosen, later, todo', mid, same⟩ := follows
      exact ⟨chosen, by omega, todo', .behind mid, same⟩
  | fail cause => exact follows
  | fault f => exact follows

end Inside

/-- There is an operation at a position, and whatever it leads to follows. -/
def Proceeds (env : Env) (template : String) (active : List String) (p : Program)
    (base : Dict Value) (start : Nat) (nodes : List Node) (outer slots : List Slot)
    (locals : Dict Value) (todo : Completion) (ip : Nat) : Prop :=
  ∃ instr, p.instrs[ip]? = some instr ∧ ∀ output,
    Follows env template active base start nodes outer slots locals todo output instr.line ip
      (exec env active ip (outer ++ slots) locals output instr.op)

section Nested

variable {p : Program} {outer : List Slot}

/-- In front of a node, its first operation begins it. -/
theorem proceeds_front {free : Nat} (placed : Placed p start outer.length (node :: rest))
    (fits : outer.length + free = p.slotCount) :
    Proceeds env template active p base start (node :: rest) outer (List.replicate free .empty)
      base (ahead env template active base start (node :: rest)) start := by
  have room := placed.head_room
  -- A construct finds the slot of its depth among the free ones.
  have slot : 0 < node.depth → ∃ free', free = free' + 1 := fun nested =>
    ⟨free - 1, by omega⟩
  cases node with
  | text line s => exact ⟨_, placed.head.head, fun _ => exec_text⟩
  | output line expr => exact ⟨_, placed.head.head, fun _ => exec_output⟩
  | call line name arguments => exact ⟨_, placed.head.head, fun _ => exec_call⟩
  | ifThen line condition yes endLine =>
      obtain ⟨free, rfl⟩ := slot (by simp only [Node.depth]; omega)
      exact ⟨_, placed.ifThen.1, fun _ => exec_ifThen⟩
  | ifElse line condition yes elseLine no endLine =>
      obtain ⟨free, rfl⟩ := slot (by simp only [Node.depth]; omega)
      exact ⟨_, placed.ifElse.1, fun _ => exec_ifElse⟩
  | loop line item collection body endLine =>
      obtain ⟨free, rfl⟩ := slot (by simp only [Node.depth]; omega)
      exact ⟨_, placed.loop.1, fun _ => exec_loop⟩
  | block line name body endLine =>
      obtain ⟨free, rfl⟩ := slot (by simp only [Node.depth]; omega)
      exact ⟨_, placed.block.1, fun _ => exec_block⟩

/-- In the body of a construct, what proceeds in the body proceeds around it; at the end of the body
it is the end operation of the construct that must proceed. -/
theorem Midway.nested {base' : Dict Value} {start' : Nat} {nodes' : List Node} {own : Slot}
    {after : Completion}
    (mid : Midway env template active base' start' nodes' ip slots locals todo)
    (lift : ∀ {ip : Nat} {slots : List Slot} {locals : Dict Value} {todo : Completion},
      Midway env template active base' start' nodes' ip slots locals todo →
        Midway env template active base start nodes ip (own :: slots) locals (todo >=> after))
    (le : start ≤ start') (body : Placed p start' (outer.length + 1) nodes')
    (fits : outer.length + (own :: slots).length = p.slotCount)
    (inside : ∀ outer : List Slot, Placed p start' outer.length nodes' →
      outer.length + slots.length = p.slotCount → ip < start' + sizes nodes' →
      Proceeds env template active p base' start' nodes' outer slots locals todo ip)
    (atEnd : ∀ free, Proceeds env template active p base start nodes outer
      (own :: List.replicate free .empty) base' after (start' + sizes nodes')) :
    Proceeds env template active p base start nodes outer (own :: slots) locals (todo >=> after)
      ip := by
  rw [List.length_cons] at fits
  rcases Nat.lt_or_ge ip (start' + sizes nodes') with before | behind
  · obtain ⟨instr, found, follows⟩ := inside (outer ++ [own]) (by simpa using body)
      (by rw [List.length_append, List.length_singleton]; omega) before
    refine ⟨instr, found, fun output => ?_⟩
    have := (follows output).inside le lift
    rwa [List.append_assoc, List.singleton_append] at this
  · have here : ip = start' + sizes nodes' := Nat.le_antisymm mid.bounds.2 behind
    obtain ⟨⟨free, rfl⟩, rfl, rfl⟩ := mid.done here
    subst here
    exact atEnd free

end Nested

/-- **The step lemma**: a run in the middle of nodes proceeds, unless it is behind the last one. -/
theorem Midway.proceeds {p : Program}
    (mid : Midway env template active base start nodes ip slots locals todo)
    (ordered : base.Ascending) :
    ∀ outer : List Slot, Placed p start outer.length nodes →
      outer.length + slots.length = p.slotCount → ip < start + sizes nodes →
      Proceeds env template active p base start nodes outer slots locals todo ip := by
  induction mid with
  | front base start nodes free =>
      intro outer placed fits running
      cases nodes with
      | nil => simp only [sizes] at running; omega
      | cons node rest =>
          rw [List.length_replicate] at fits
          exact proceeds_front placed fits
  | behind mid ih =>
      intro outer placed fits running
      obtain ⟨instr, found, follows⟩ :=
        ih ordered outer placed.behind fits (by simp only [sizes] at running; omega)
      exact ⟨instr, found, fun output => (follows output).behind⟩
  | inThen mid ih =>
      intro outer placed fits _
      obtain ⟨-, body, last⟩ := placed.ifThen
      exact mid.nested .inThen (by omega) body fits (ih ordered) fun _ =>
        ⟨_, last, fun _ => exec_endIf true (by simp only [Node.size]; omega) (by omega)⟩
  | notTaken =>
      intro outer placed _ _
      exact ⟨_, placed.ifThen.2.2,
        fun _ => exec_endIf false (by simp only [Node.size]; omega) (by omega)⟩
  | inYes mid ih =>
      intro outer placed fits _
      obtain ⟨-, body, middle, -, -⟩ := placed.ifElse
      exact mid.nested .inYes (by omega) body fits (ih ordered) fun _ =>
        ⟨_, middle, fun _ => exec_orElse⟩
  | inNo mid ih =>
      intro outer placed fits _
      obtain ⟨-, -, -, body, last⟩ := placed.ifElse
      exact mid.nested .inNo (by omega) body fits (ih ordered) fun _ =>
        ⟨_, last, fun _ => exec_endIf false (by simp only [Node.size]; omega) (by omega)⟩
  | jumped =>
      intro outer placed _ _
      exact ⟨_, placed.ifElse.2.2.2.2,
        fun _ => exec_endIf true (by simp only [Node.size]; omega) (by omega)⟩
  | inLoop runs mid ih =>
      intro outer placed fits _
      obtain ⟨-, body, last⟩ := placed.loop
      exact mid.nested (.inLoop runs) (by omega) body fits (ih (ascending_bindItem ordered _ _ _))
        fun _ => ⟨_, last, fun _ => exec_endFor runs ordered⟩
  | inBlock mid ih =>
      intro outer placed fits _
      obtain ⟨-, body, last⟩ := placed.block
      exact mid.nested .inBlock (by omega) body fits (ih ordered) fun _ =>
        ⟨_, last, fun _ => exec_endBlock (by simp only [Node.size]; omega) (by omega)⟩

end

end BraceTemplate.Machine
