import VideoEdit.Proofs.Yaml.FlowScan
/-!
# Reading flow style

The tokens of a tree are read as its nodes, and so a text that is the text of a mapping is one whole
document with the nodes of the mapping.
-/
namespace VideoEdit.Yaml

section
variable {handles : List (List Char × List Char)} {anchors : List (List Char × Nat)}
  {fault : Option Fault}

private theorem node_scalar {t : Token} {style : ScalarStyle} {text : List Char}
    (h : t.kind = .scalar style text) (fuel : Nat) (block dashes : Bool) (more : List Token) :
    Reader.node (fuel + 1) block dashes ⟨t :: more, anchors, handles, fault⟩ =
      (.scalar ⟨t.start, none, none⟩ style text, ⟨more, anchors, handles, fault⟩) := by
  simp [Reader.node, Reader.kind, Reader.properties?, Reader.start, Reader.skip, h]

private theorem node_mapping {t : Token} (h : t.kind = .flowMappingStart) {fuel : Nat}
    {tokens more : List Token} {nodes : List (Node × Node)}
    (hpairs : Reader.flowPairs fuel true ⟨tokens, anchors, handles, fault⟩ =
      (nodes, ⟨more, anchors, handles, fault⟩)) (block dashes : Bool) :
    Reader.node (fuel + 1) block dashes ⟨t :: tokens, anchors, handles, fault⟩ =
      (.mapping ⟨t.start, none, none⟩ nodes, ⟨more, anchors, handles, fault⟩) := by
  simp [Reader.node, Reader.kind, Reader.properties?, Reader.start, Reader.skip, h, hpairs]

private theorem flowPairs_end {t : Token} (h : t.kind = .flowMappingEnd) (fuel : Nat) (first : Bool)
    (more : List Token) :
    Reader.flowPairs (fuel + 1) first ⟨t :: more, anchors, handles, fault⟩ =
      ([], ⟨more, anchors, handles, fault⟩) := by
  simp [Reader.flowPairs, Reader.kind, Reader.skip, h]

private theorem flowPairs_pair {first : Bool} {comma : List Token} {sign key colon v : Token}
    {text : List Char} {fuel : Nat} {rest last more : List Token} {node : Node}
    {nodes : List (Node × Node)}
    (hcomma : comma.map Token.kind = if first then [] else [.flowEntry])
    (hsign : sign.kind = .key) (hkey : key.kind = .scalar .plain text)
    (hcolon : colon.kind = .value) (hv : v.kind ≠ .flowEntry ∧ v.kind ≠ .flowMappingEnd)
    (hnode : Reader.node (fuel + 1) false false ⟨v :: rest, anchors, handles, fault⟩ =
      (node, ⟨last, anchors, handles, fault⟩))
    (hpairs : Reader.flowPairs (fuel + 2) false ⟨last, anchors, handles, fault⟩ =
      (nodes, ⟨more, anchors, handles, fault⟩)) :
    Reader.flowPairs (fuel + 3) first
        ⟨comma ++ sign :: key :: colon :: v :: rest, anchors, handles, fault⟩ =
      ((.scalar ⟨key.start, none, none⟩ .plain text, node) :: nodes,
        ⟨more, anchors, handles, fault⟩) := by
  have hvalue : Reader.flowValue (fuel + 2) .flowMappingEnd
      ⟨colon :: v :: rest, anchors, handles, fault⟩ =
        (node, ⟨last, anchors, handles, fault⟩) := by
    simp [Reader.flowValue, Reader.kind, Reader.skip, hcolon, hv, hnode]
  have hscalar : Reader.node (fuel + 2) false false
      ⟨key :: colon :: v :: rest, anchors, handles, fault⟩ =
        (.scalar ⟨key.start, none, none⟩ .plain text,
          ⟨colon :: v :: rest, anchors, handles, fault⟩) :=
    node_scalar hkey (fuel + 1) false false _
  rw [Reader.flowPairs]
  cases first with
  | true =>
    obtain rfl := List.map_eq_nil_iff.1 hcomma
    simp [Reader.kind, Reader.skip, Reader.comma?, hsign, hkey, hscalar, hvalue, hpairs]
  | false =>
    obtain ⟨c, rfl, hc⟩ := List.map_eq_singleton_iff.1 hcomma
    simp [Reader.kind, Reader.skip, Reader.comma?, hc, hsign, hkey, hscalar, hvalue, hpairs]

private theorem exists_cons_of_kinds (t : Tree) {tokens : List Token}
    (h : tokens.map Token.kind = t.kinds) :
    ∃ v rest, tokens = v :: rest ∧ v.kind ≠ .flowEntry ∧ v.kind ≠ .flowMappingEnd := by
  cases t
  all_goals
    rw [Tree.kinds] at h
    obtain ⟨v, rest, rfl, hv, -⟩ := List.map_eq_cons_iff.1 h
    exact ⟨v, rest, rfl, by simp [hv], by simp [hv]⟩

mutual

/-- The tokens of a tree are read as its nodes, whatever follows. -/
theorem exists_node : ∀ (t : Tree) {tokens : List Token}, tokens.map Token.kind = t.kinds →
    ∀ {fuel : Nat}, t.kinds.length ≤ fuel → ∀ (block dashes : Bool) (more : List Token),
      ∃ n, Reader.node fuel block dashes ⟨tokens ++ more, anchors, handles, fault⟩ =
        (n, ⟨more, anchors, handles, fault⟩) ∧ t.IsNode n
  | .word w, tokens, h, fuel, hfuel, block, dashes, more => by
    rw [Tree.kinds] at h hfuel
    obtain ⟨t, rfl, ht⟩ := List.map_eq_singleton_iff.1 h
    obtain ⟨fuel, rfl⟩ := Nat.exists_eq_add_one.2 hfuel
    refine ⟨_, node_scalar ht fuel block dashes more, ?_⟩
    rw [Tree.IsNode]
    exact ⟨_, rfl⟩
  | .string text, tokens, h, fuel, hfuel, block, dashes, more => by
    rw [Tree.kinds] at h hfuel
    obtain ⟨t, rfl, ht⟩ := List.map_eq_singleton_iff.1 h
    obtain ⟨fuel, rfl⟩ := Nat.exists_eq_add_one.2 hfuel
    refine ⟨_, node_scalar ht fuel block dashes more, ?_⟩
    rw [Tree.IsNode]
    exact ⟨_, rfl⟩
  | .mapping pairs, tokens, h, fuel, hfuel, block, dashes, more => by
    rw [Tree.kinds] at h hfuel
    obtain ⟨t, rest, rfl, ht, hrest⟩ := List.map_eq_cons_iff.1 h
    obtain ⟨fuel, rfl⟩ := Nat.exists_eq_add_one.2 (Nat.lt_of_lt_of_le (Nat.succ_pos _) hfuel)
    obtain ⟨nodes, hnodes, hpairs⟩ :=
      exists_flowPairs true pairs hrest (Nat.le_of_succ_le_succ hfuel) more
    refine ⟨_, node_mapping ht hnodes block dashes, ?_⟩
    rw [Tree.IsNode]
    exact ⟨_, nodes, rfl, hpairs⟩

private theorem exists_flowPairs : ∀ (first : Bool) (pairs : List (Key × Tree))
    {tokens : List Token},
    tokens.map Token.kind = Tree.pairsKinds first pairs →
      ∀ {fuel : Nat}, (Tree.pairsKinds first pairs).length ≤ fuel → ∀ more : List Token,
        ∃ nodes, Reader.flowPairs fuel first ⟨tokens ++ more, anchors, handles, fault⟩ =
          (nodes, ⟨more, anchors, handles, fault⟩) ∧ Tree.ArePairs pairs nodes
  | first, [], tokens, h, fuel, hfuel, more => by
    rw [Tree.pairsKinds] at h hfuel
    obtain ⟨t, rfl, ht⟩ := List.map_eq_singleton_iff.1 h
    obtain ⟨fuel, rfl⟩ := Nat.exists_eq_add_one.2 hfuel
    exact ⟨_, flowPairs_end ht fuel first more, by rw [Tree.ArePairs]⟩
  | first, (key, value) :: pairs, tokens, h, fuel, hfuel, more => by
    rw [Tree.pairsKinds] at h hfuel
    obtain ⟨front, back, rfl, hfront, hback⟩ := List.map_eq_append_iff.1 h
    obtain ⟨comma, tail, rfl, hcomma, htail⟩ := List.map_eq_append_iff.1 hfront
    obtain ⟨sign, tail, rfl, hsign, htail⟩ := List.map_eq_cons_iff.1 htail
    obtain ⟨name, tail, rfl, hname, htail⟩ := List.map_eq_cons_iff.1 htail
    obtain ⟨colon, tail, rfl, hcolon, hvalue⟩ := List.map_eq_cons_iff.1 htail
    simp only [List.length_append, List.length_cons] at hfuel
    obtain ⟨fuel, rfl⟩ := Nat.exists_eq_add_of_le (show 3 ≤ fuel by omega)
    rw [Nat.add_comm 3]
    obtain ⟨v, rest, rfl, hv⟩ := exists_cons_of_kinds value hvalue
    obtain ⟨node, hnode, hisNode⟩ :=
      exists_node value hvalue (show _ ≤ fuel + 1 by omega) false false (back ++ more)
    obtain ⟨nodes, hnodes, hpairs⟩ :=
      exists_flowPairs false pairs hback (show _ ≤ fuel + 2 by omega) more
    refine ⟨(.scalar ⟨name.start, none, none⟩ .plain key.text, node) :: nodes, ?_, ?_⟩
    · simpa using flowPairs_pair hcomma hsign hname hcolon hv hnode hnodes
    · rw [Tree.ArePairs]
      exact ⟨_, node, nodes, rfl, hisNode, hpairs⟩

end

end

private theorem root_mapping {t : Token} (h : t.kind = .flowMappingStart) (rest : List Token) :
    Reader.root (t :: rest) =
      Reader.node (4 * (t :: rest).length + 4) true false
        ⟨t :: rest, [], Reader.standardHandles, none⟩ := by
  simp [Reader.root, Reader.directives?, Reader.kind, h]

/-- The text of a mapping is one whole document with the nodes of the mapping. -/
theorem document_mapping (pairs : List (Key × Tree)) :
    ∃ root, (document (String.ofList (Tree.mapping pairs).text)).root = some root ∧
      (document (String.ofList (Tree.mapping pairs).text)).isWhole ∧
        (Tree.mapping pairs).IsNode root := by
  obtain ⟨ts, last, htokens, hts, hlast⟩ :=
    List.map_eq_append_iff.1 (kinds_tokens_mapping pairs)
  obtain ⟨stop, rfl, hstop⟩ := List.map_eq_singleton_iff.1 hlast
  have hstart : ts.map Token.kind = .flowMappingStart :: Tree.pairsKinds true pairs := by
    rw [hts, Tree.kinds]
  obtain ⟨first, rest, rfl, hfirst, -⟩ := List.map_eq_cons_iff.1 hstart
  have hfuel : (Tree.mapping pairs).kinds.length ≤
      4 * (first :: (rest ++ [stop])).length + 4 := by
    rw [← hts, List.length_map, List.length_cons, List.length_cons, List.length_append]
    omega
  obtain ⟨root, hroot, hisNode⟩ := exists_node (.mapping pairs) hts hfuel true false [stop]
  have hroot : Reader.root (first :: rest ++ [stop]) =
      (root, ⟨[stop], [], Reader.standardHandles, none⟩) :=
    (root_mapping hfirst (rest ++ [stop])).trans hroot
  have hdocument : document (String.ofList (Tree.mapping pairs).text) =
      ⟨some root, none, true⟩ := by
    simp only [document, String.toList_ofList, htokens, hroot]
    simp [Reader.kind, hfirst, hstop]
  exact ⟨root, by rw [hdocument], by rw [hdocument]; rfl, hisNode⟩

end VideoEdit.Yaml
