import BcAllocators.Lib.Extents
import BcAllocators.Lib.Links
import BcAllocators.Lib.Transitions
import BcAllocators.Core
import BcAllocators.Platform
import BcAllocators.Context
import BcAllocators.Creation
import BcAllocators.Pool.Reallocation
import BcAllocators.Lib.ByteHeap
import BcAllocators.Pool.Accounting
import BcAllocators.Pool.Integrity
import BcAllocators.Pool.Oversize
import BcAllocators.Pool.Alignment
import BcAllocators.Pool.Failures
import BcAllocators.Pool.Reuse
import BcAllocators.Pool.Demand
import BcAllocators.Pool.Magazine
import BcAllocators.Pool.Contract
import BcAllocators.Pool.Neighbours
import BcAllocators.Slab.Alignment
import BcAllocators.Slab.Leaks
import BcAllocators.Slab.Overflow
import BcAllocators.TypedArray.Agreement
import BcAllocators.Records
import BcAllocators.Arena.Accounting
import BcAllocators.Arena.Layout
import BcAllocators.Arena.Lifetime
import BcAllocators.Arena.Requests
import BcAllocators.Arena.Erasure
import BcAllocators.Arena.Foreign
import BcAllocators.Arena.Stability
import BcAllocators.Arena.Guarantee
import BcAllocators.Arena.Growth
import BcAllocators.Arena.Recycling
import BcAllocators.Arena.Bump
import BcAllocators.Shared.Contents
import BcAllocators.Shared.Accounting
import BcAllocators.TypedArray.Growth
import BcAllocators.Slab.Demand
import BcAllocators.Shared.Fuzzing
import BcAllocators.Shared.Process
import BcAllocators.Shared.Users
import BcAllocators.Shared.ArenaFuzzing
