/-!
# Powers

Widths and sizes are powers of numbers, and the library means the powers of the core language by
them. Where a theory of monoids is at hand as well, its powers would come first; this line keeps the
order, so that every module reads `2 ^ n` as the same term.
-/

attribute [instance (high), default_instance high] instPowNat
