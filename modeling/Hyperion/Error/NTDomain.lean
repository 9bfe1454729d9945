/-
What `NTDomain` converts its statuses to, and the tables it looks them up in.

A status is a signed number of 32 bits and the cases are unsigned ones, so a status is found
by its bits, with zeros before them.  The code casts it to 64 bits, which repeats the sign:
a negative status gets ones before its bits.  Every case is below 2^32 and is that of a
negative status, and so no status reaches any case.
-/
import Hyperion.Error.Domains

namespace Hyperion

namespace NTDomain

/-! ### The conversions -/

/-- The cases of `to_win32_code`, of 64 bits. -/
def win32_cases : List (BitVec 64 × BitVec 32) := [
    (0x80000002, 0x3e6), (0x80000005, 0xea), (0x80000006, 0x12), (0x80000007, 0x2a3),
    (0x8000000a, 0x2a4), (0x8000000b, 0x56f), (0x8000000c, 0x2a8), (0x8000000d, 0x12b),
    (0x8000000e, 0x1c), (0x8000000f, 0x15), (0x80000010, 0x15), (0x80000011, 0xaa),
    (0x80000012, 0x103), (0x80000013, 0xfe), (0x80000014, 0xff), (0x80000015, 0xff),
    (0x80000016, 0x456), (0x80000017, 0x2a5), (0x80000018, 0x2a6), (0x8000001a, 0x103),
    (0x8000001b, 0x44d), (0x8000001c, 0x456), (0x8000001d, 0x457), (0x8000001e, 0x44c),
    (0x8000001f, 0x44e), (0x80000020, 0x2a7), (0x80000021, 0x44f), (0x80000022, 0x450),
    (0x80000023, 0x702), (0x80000024, 0x713), (0x80000025, 0x962), (0x80000026, 0x2aa),
    (0x80000027, 0x10f4), (0x80000028, 0x2ab), (0x80000029, 0x2ac), (0x8000002a, 0x2ad),
    (0x8000002b, 0x2ae), (0x8000002c, 0x2af), (0x8000002d, 0x2a9), (0x8000002e, 0x321),
    (0x8000002f, 0x324), (0x80000030, 0xab), (0x80000032, 0xeb), (0x80000288, 0x48d),
    (0x80000289, 0x48e), (0x80000803, 0x1abb), (0x8000a127, 0x3bdf), (0x8000cf00, 0x16e),
    (0x8000cf04, 0x16d), (0x8000cf05, 0x176), (0x80130001, 0x13c5), (0x80130002, 0x13c6),
    (0x80130003, 0x13c7), (0x80130004, 0x13c8), (0x80130005, 0x13c9), (0x80190009, 0x19e5),
    (0x80190029, 0x1aa0), (0x80190031, 0x1aa2), (0x80190041, 0x1ab3), (0x80190042, 0x1ab4),
    (0x801c0001, 0x7a), (0xc0000001, 0x1f), (0xc0000002, 0x1), (0xc0000003, 0x57),
    (0xc0000004, 0x18), (0xc0000005, 0x3e6), (0xc0000006, 0x3e7), (0xc0000007, 0x5ae),
    (0xc0000008, 0x6), (0xc0000009, 0x3e9), (0xc000000a, 0xc1), (0xc000000b, 0x57),
    (0xc000000c, 0x21d), (0xc000000d, 0x57), (0xc000000e, 0x2), (0xc000000f, 0x2),
    (0xc0000010, 0x1), (0xc0000011, 0x26), (0xc0000012, 0x22), (0xc0000013, 0x15),
    (0xc0000014, 0x6f9), (0xc0000015, 0x1b), (0xc0000016, 0xea), (0xc0000017, 0x8),
    (0xc0000018, 0x1e7), (0xc0000019, 0x1e7), (0xc000001a, 0x57), (0xc000001b, 0x57),
    (0xc000001c, 0x1), (0xc000001e, 0x5), (0xc000001f, 0x5), (0xc0000020, 0xc1), (0xc0000021, 0x5),
    (0xc0000022, 0x5), (0xc0000023, 0x7a), (0xc0000024, 0x6), (0xc0000027, 0x21e),
    (0xc0000028, 0x21f), (0xc0000029, 0x220), (0xc000002a, 0x9e), (0xc000002c, 0x1e7),
    (0xc000002d, 0x1e7), (0xc000002e, 0x221), (0xc000002f, 0x222), (0xc0000030, 0x57),
    (0xc0000031, 0x223), (0xc0000032, 0x571), (0xc0000033, 0x7b), (0xc0000034, 0x2),
    (0xc0000035, 0xb7), (0xc0000036, 0x72a), (0xc0000037, 0x6), (0xc0000038, 0x224),
    (0xc0000039, 0xa1), (0xc000003a, 0x3), (0xc000003b, 0xa1), (0xc000003c, 0x45d),
    (0xc000003d, 0x45d), (0xc000003e, 0x17), (0xc000003f, 0x17), (0xc0000040, 0x8),
    (0xc0000041, 0x5), (0xc0000042, 0x6), (0xc0000043, 0x20), (0xc0000044, 0x718),
    (0xc0000045, 0x57), (0xc0000046, 0x120), (0xc0000047, 0x12a), (0xc0000048, 0x57),
    (0xc0000049, 0x57), (0xc000004a, 0x9c), (0xc000004b, 0x5), (0xc000004c, 0x57),
    (0xc000004d, 0x57), (0xc000004e, 0x57), (0xc000004f, 0x11a), (0xc0000050, 0xff),
    (0xc0000051, 0x570), (0xc0000052, 0x570), (0xc0000053, 0x570), (0xc0000054, 0x21),
    (0xc0000055, 0x21), (0xc0000056, 0x5), (0xc0000057, 0x32), (0xc0000058, 0x519),
    (0xc0000059, 0x51a), (0xc000005a, 0x51b), (0xc000005b, 0x51c), (0xc000005c, 0x51d),
    (0xc000005d, 0x51e), (0xc000005e, 0x51f), (0xc000005f, 0x520), (0xc0000060, 0x521),
    (0xc0000061, 0x522), (0xc0000062, 0x523), (0xc0000063, 0x524), (0xc0000064, 0x525),
    (0xc0000065, 0x526), (0xc0000066, 0x527), (0xc0000067, 0x528), (0xc0000068, 0x529),
    (0xc0000069, 0x52a), (0xc000006a, 0x56), (0xc000006b, 0x52c), (0xc000006c, 0x52d),
    (0xc000006d, 0x52e), (0xc000006e, 0x52f), (0xc000006f, 0x530), (0xc0000070, 0x531),
    (0xc0000071, 0x532), (0xc0000072, 0x533), (0xc0000073, 0x534), (0xc0000074, 0x535),
    (0xc0000075, 0x536), (0xc0000076, 0x537), (0xc0000077, 0x538), (0xc0000078, 0x539),
    (0xc0000079, 0x53a), (0xc000007a, 0x7f), (0xc000007b, 0xc1), (0xc000007c, 0x3f0),
    (0xc000007d, 0x53c), (0xc000007e, 0x9e), (0xc000007f, 0x70), (0xc0000080, 0x53d),
    (0xc0000081, 0x53e), (0xc0000082, 0x44), (0xc0000083, 0x103), (0xc0000084, 0x53f),
    (0xc0000085, 0x103), (0xc0000086, 0x9a), (0xc0000087, 0xe), (0xc0000088, 0x1e7),
    (0xc0000089, 0x714), (0xc000008a, 0x715), (0xc000008b, 0x716), (0xc0000095, 0x216),
    (0xc0000097, 0x8), (0xc0000098, 0x3ee), (0xc0000099, 0x540), (0xc000009a, 0x5aa),
    (0xc000009b, 0x3), (0xc000009c, 0x17), (0xc000009d, 0x48f), (0xc000009e, 0x15),
    (0xc000009f, 0x1e7), (0xc00000a0, 0x1e7), (0xc00000a1, 0x5ad), (0xc00000a2, 0x13),
    (0xc00000a3, 0x15), (0xc00000a4, 0x541), (0xc00000a5, 0x542), (0xc00000a6, 0x543),
    (0xc00000a7, 0x544), (0xc00000a8, 0x545), (0xc00000a9, 0x57), (0xc00000aa, 0x225),
    (0xc00000ab, 0xe7), (0xc00000ac, 0xe7), (0xc00000ad, 0xe6), (0xc00000ae, 0xe7),
    (0xc00000af, 0x1), (0xc00000b0, 0xe9), (0xc00000b1, 0xe8), (0xc00000b2, 0x217),
    (0xc00000b3, 0x218), (0xc00000b4, 0xe6), (0xc00000b5, 0x79), (0xc00000b6, 0x26),
    (0xc00000b7, 0x226), (0xc00000b8, 0x227), (0xc00000b9, 0x228), (0xc00000ba, 0x5),
    (0xc00000bb, 0x32), (0xc00000bc, 0x33), (0xc00000bd, 0x34), (0xc00000be, 0x35),
    (0xc00000bf, 0x36), (0xc00000c0, 0x37), (0xc00000c1, 0x38), (0xc00000c2, 0x39),
    (0xc00000c3, 0x3a), (0xc00000c4, 0x3b), (0xc00000c5, 0x3c), (0xc00000c6, 0x3d),
    (0xc00000c7, 0x3e), (0xc00000c8, 0x3f), (0xc00000c9, 0x40), (0xc00000ca, 0x41),
    (0xc00000cb, 0x42), (0xc00000cc, 0x43), (0xc00000cd, 0x44), (0xc00000ce, 0x45),
    (0xc00000cf, 0x46), (0xc00000d0, 0x47), (0xc00000d1, 0x48), (0xc00000d2, 0x58),
    (0xc00000d3, 0x229), (0xc00000d4, 0x11), (0xc00000d5, 0x5), (0xc00000d6, 0xf0),
    (0xc00000d7, 0x546), (0xc00000d8, 0x22a), (0xc00000d9, 0xe8), (0xc00000da, 0x547),
    (0xc00000db, 0x22b), (0xc00000dc, 0x548), (0xc00000dd, 0x549), (0xc00000de, 0x54a),
    (0xc00000df, 0x54b), (0xc00000e0, 0x54c), (0xc00000e1, 0x54d), (0xc00000e2, 0x12c),
    (0xc00000e3, 0x12d), (0xc00000e4, 0x54e), (0xc00000e5, 0x54f), (0xc00000e6, 0x550),
    (0xc00000e7, 0x551), (0xc00000e8, 0x6f8), (0xc00000e9, 0x45d), (0xc00000ea, 0x22c),
    (0xc00000eb, 0x22d), (0xc00000ec, 0x22e), (0xc00000ed, 0x552), (0xc00000ee, 0x553),
    (0xc00000ef, 0x57), (0xc00000f0, 0x57), (0xc00000f1, 0x57), (0xc00000f2, 0x57),
    (0xc00000f3, 0x57), (0xc00000f4, 0x57), (0xc00000f5, 0x57), (0xc00000f6, 0x57),
    (0xc00000f7, 0x57), (0xc00000f8, 0x57), (0xc00000f9, 0x57), (0xc00000fa, 0x57),
    (0xc00000fb, 0x3), (0xc00000fc, 0x420), (0xc00000fd, 0x3e9), (0xc00000fe, 0x554),
    (0xc00000ff, 0x22f), (0xc0000100, 0xcb), (0xc0000101, 0x91), (0xc0000102, 0x570),
    (0xc0000103, 0x10b), (0xc0000104, 0x555), (0xc0000105, 0x556), (0xc0000106, 0xce),
    (0xc0000107, 0x961), (0xc0000108, 0x964), (0xc000010a, 0x5), (0xc000010b, 0x557),
    (0xc000010c, 0x230), (0xc000010d, 0x558), (0xc000010e, 0x420), (0xc000010f, 0x21a),
    (0xc0000110, 0x21a), (0xc0000111, 0x21a), (0xc0000112, 0x21a), (0xc0000113, 0x21a),
    (0xc0000114, 0x21a), (0xc0000115, 0x21a), (0xc0000116, 0x21a), (0xc0000117, 0x5a4),
    (0xc0000118, 0x231), (0xc0000119, 0x233), (0xc000011a, 0x234), (0xc000011b, 0xc1),
    (0xc000011c, 0x559), (0xc000011d, 0x55a), (0xc000011e, 0x3ee), (0xc000011f, 0x4),
    (0xc0000120, 0x3e3), (0xc0000121, 0x5), (0xc0000122, 0x4ba), (0xc0000123, 0x5),
    (0xc0000124, 0x55b), (0xc0000125, 0x55c), (0xc0000126, 0x55d), (0xc0000127, 0x55e),
    (0xc0000128, 0x6), (0xc0000129, 0x235), (0xc000012a, 0x236), (0xc000012b, 0x55f),
    (0xc000012c, 0x237), (0xc000012d, 0x5af), (0xc000012e, 0xc1), (0xc000012f, 0xc1),
    (0xc0000130, 0xc1), (0xc0000131, 0xc1), (0xc0000132, 0x238), (0xc0000133, 0x576),
    (0xc0000134, 0x239), (0xc0000135, 0x7e), (0xc0000136, 0x23a), (0xc0000137, 0x23b),
    (0xc0000138, 0xb6), (0xc0000139, 0x7f), (0xc000013a, 0x23c), (0xc000013b, 0x40),
    (0xc000013c, 0x40), (0xc000013d, 0x33), (0xc000013e, 0x3b), (0xc000013f, 0x3b),
    (0xc0000140, 0x3b), (0xc0000141, 0x3b), (0xc0000142, 0x45a), (0xc0000143, 0x23d),
    (0xc0000144, 0x23e), (0xc0000145, 0x23f), (0xc0000146, 0x240), (0xc0000147, 0x242),
    (0xc0000148, 0x7c), (0xc0000149, 0x56), (0xc000014a, 0x243), (0xc000014b, 0x6d),
    (0xc000014c, 0x3f1), (0xc000014d, 0x3f8), (0xc000014e, 0x244), (0xc000014f, 0x3ed),
    (0xc0000150, 0x45e), (0xc0000151, 0x560), (0xc0000152, 0x561), (0xc0000153, 0x562),
    (0xc0000154, 0x563), (0xc0000155, 0x564), (0xc0000156, 0x565), (0xc0000157, 0x566),
    (0xc0000158, 0x567), (0xc0000159, 0x3ef), (0xc000015a, 0x568), (0xc000015b, 0x569),
    (0xc000015c, 0x3f9), (0xc000015d, 0x56a), (0xc000015e, 0x245), (0xc000015f, 0x45d),
    (0xc0000160, 0x4db), (0xc0000161, 0x246), (0xc0000162, 0x459), (0xc0000163, 0x247),
    (0xc0000164, 0x248), (0xc0000165, 0x462), (0xc0000166, 0x463), (0xc0000167, 0x464),
    (0xc0000168, 0x465), (0xc0000169, 0x466), (0xc000016a, 0x467), (0xc000016b, 0x468),
    (0xc000016c, 0x45f), (0xc000016d, 0x45d), (0xc000016e, 0x249), (0xc0000172, 0x451),
    (0xc0000173, 0x452), (0xc0000174, 0x453), (0xc0000175, 0x454), (0xc0000176, 0x455),
    (0xc0000177, 0x469), (0xc0000178, 0x458), (0xc000017a, 0x56b), (0xc000017b, 0x56c),
    (0xc000017c, 0x3fa), (0xc000017d, 0x3fb), (0xc000017e, 0x56d), (0xc000017f, 0x56e),
    (0xc0000180, 0x3fc), (0xc0000181, 0x3fd), (0xc0000182, 0x57), (0xc0000183, 0x45d),
    (0xc0000184, 0x16), (0xc0000185, 0x45d), (0xc0000186, 0x45d), (0xc0000187, 0x24a),
    (0xc0000188, 0x5de), (0xc0000189, 0x13), (0xc000018a, 0x6fa), (0xc000018b, 0x6fb),
    (0xc000018c, 0x6fc), (0xc000018d, 0x6fd), (0xc000018e, 0x5dc), (0xc000018f, 0x5dd),
    (0xc0000190, 0x6fe), (0xc0000191, 0x24b), (0xc0000192, 0x700), (0xc0000193, 0x701),
    (0xc0000194, 0x46b), (0xc0000195, 0x4c3), (0xc0000196, 0x4c4), (0xc0000197, 0x5df),
    (0xc0000198, 0x70f), (0xc0000199, 0x710), (0xc000019a, 0x711), (0xc000019b, 0x712),
    (0xc000019c, 0x24c), (0xc000019d, 0x420), (0xc000019e, 0x130), (0xc000019f, 0x131),
    (0xc00001a0, 0x132), (0xc00001a1, 0x133), (0xc00001a2, 0x325), (0xc00001a3, 0x134),
    (0xc00001a4, 0x135), (0xc00001a5, 0x136), (0xc00001a6, 0x137), (0xc00001a7, 0x139),
    (0xc00001a8, 0x1abb), (0xc00001a9, 0x32), (0xc00001aa, 0x3d54), (0xc00001ab, 0x329),
    (0xc00001ac, 0x678), (0xc00001ad, 0x8), (0xc00001ae, 0x2f7), (0xc00001af, 0x32d),
    (0xc0000201, 0x41), (0xc0000202, 0x572), (0xc0000203, 0x3b), (0xc0000204, 0x717),
    (0xc0000205, 0x46a), (0xc0000206, 0x6f8), (0xc0000207, 0x4be), (0xc0000208, 0x4be),
    (0xc0000209, 0x44), (0xc000020a, 0x34), (0xc000020b, 0x40), (0xc000020c, 0x40),
    (0xc000020d, 0x40), (0xc000020e, 0x44), (0xc000020f, 0x3b), (0xc0000210, 0x3b),
    (0xc0000211, 0x3b), (0xc0000212, 0x3b), (0xc0000213, 0x3b), (0xc0000214, 0x3b),
    (0xc0000215, 0x3b), (0xc0000216, 0x32), (0xc0000217, 0x32), (0xc0000218, 0x24d),
    (0xc0000219, 0x24e), (0xc000021a, 0x24f), (0xc000021b, 0x250), (0xc000021c, 0x17e6),
    (0xc000021d, 0x251), (0xc000021e, 0x252), (0xc000021f, 0x253), (0xc0000220, 0x46c),
    (0xc0000221, 0xc1), (0xc0000222, 0x254), (0xc0000223, 0x255), (0xc0000224, 0x773),
    (0xc0000225, 0x490), (0xc0000226, 0x256), (0xc0000227, 0x4ff), (0xc0000228, 0x257),
    (0xc0000229, 0x57), (0xc000022a, 0x1392), (0xc000022b, 0x1392), (0xc000022c, 0x258),
    (0xc000022d, 0x4d5), (0xc000022e, 0x259), (0xc000022f, 0x25a), (0xc0000230, 0x492),
    (0xc0000231, 0x25b), (0xc0000232, 0x25c), (0xc0000233, 0x774), (0xc0000234, 0x775),
    (0xc0000235, 0x6), (0xc0000236, 0x4c9), (0xc0000237, 0x4ca), (0xc0000238, 0x4cb),
    (0xc0000239, 0x4cc), (0xc000023a, 0x4cd), (0xc000023b, 0x4ce), (0xc000023c, 0x4cf),
    (0xc000023d, 0x4d0), (0xc000023e, 0x4d1), (0xc000023f, 0x4d2), (0xc0000240, 0x4d3),
    (0xc0000241, 0x4d4), (0xc0000242, 0x25d), (0xc0000243, 0x4c8), (0xc0000244, 0x25e),
    (0xc0000245, 0x25f), (0xc0000246, 0x4d6), (0xc0000247, 0x4d7), (0xc0000248, 0x4d8),
    (0xc0000249, 0xc1), (0xc0000250, 0x260), (0xc0000251, 0x261), (0xc0000252, 0x262),
    (0xc0000253, 0x4d4), (0xc0000254, 0x263), (0xc0000255, 0x264), (0xc0000256, 0x265),
    (0xc0000257, 0x4d0), (0xc0000258, 0x266), (0xc0000259, 0x573), (0xc000025a, 0x267),
    (0xc000025b, 0x268), (0xc000025c, 0x269), (0xc000025e, 0x422), (0xc000025f, 0x26a),
    (0xc0000260, 0x26b), (0xc0000261, 0x26c), (0xc0000262, 0xb6), (0xc0000263, 0x7f),
    (0xc0000264, 0x120), (0xc0000265, 0x476), (0xc0000266, 0x26d), (0xc0000267, 0x10fe),
    (0xc0000268, 0x26e), (0xc0000269, 0x26f), (0xc000026a, 0x1b8e), (0xc000026b, 0x270),
    (0xc000026c, 0x7d1), (0xc000026d, 0x4b1), (0xc000026e, 0x15), (0xc000026f, 0x21c),
    (0xc0000270, 0x21c), (0xc0000271, 0x271), (0xc0000272, 0x491), (0xc0000273, 0x272),
    (0xc0000275, 0x1126), (0xc0000276, 0x1129), (0xc0000277, 0x112a), (0xc0000278, 0x1128),
    (0xc0000279, 0x780), (0xc000027a, 0x291), (0xc000027b, 0x54f), (0xc000027c, 0x54f),
    (0xc0000280, 0x781), (0xc0000281, 0xa1), (0xc0000282, 0x273), (0xc0000283, 0x488),
    (0xc0000284, 0x489), (0xc0000285, 0x48a), (0xc0000286, 0x48b), (0xc0000287, 0x48c),
    (0xc000028a, 0x5), (0xc000028b, 0x5), (0xc000028c, 0x284), (0xc000028d, 0x5), (0xc000028e, 0x5),
    (0xc000028f, 0x5), (0xc0000290, 0x5), (0xc0000291, 0x1777), (0xc0000292, 0x1778),
    (0xc0000293, 0x1772), (0xc0000295, 0x1068), (0xc0000296, 0x1069), (0xc0000297, 0x106a),
    (0xc0000298, 0x106b), (0xc0000299, 0x201a), (0xc000029a, 0x201b), (0xc000029b, 0x201c),
    (0xc000029c, 0x1), (0xc000029d, 0x10ff), (0xc000029e, 0x1100), (0xc000029f, 0x494),
    (0xc00002a0, 0x274), (0xc00002a1, 0x200a), (0xc00002a2, 0x200b), (0xc00002a3, 0x200c),
    (0xc00002a4, 0x200d), (0xc00002a5, 0x200e), (0xc00002a6, 0x200f), (0xc00002a7, 0x2010),
    (0xc00002a8, 0x2011), (0xc00002a9, 0x2012), (0xc00002aa, 0x2013), (0xc00002ab, 0x2014),
    (0xc00002ac, 0x2015), (0xc00002ad, 0x2016), (0xc00002ae, 0x2017), (0xc00002af, 0x2018),
    (0xc00002b0, 0x2019), (0xc00002b1, 0x211e), (0xc00002b2, 0x1127), (0xc00002b3, 0x275),
    (0xc00002b4, 0x276), (0xc00002b5, 0x277), (0xc00002b6, 0x651), (0xc00002b7, 0x49a),
    (0xc00002b8, 0x49b), (0xc00002b9, 0x278), (0xc00002ba, 0x2047), (0xc00002c1, 0x2024),
    (0xc00002c2, 0x279), (0xc00002c3, 0x575), (0xc00002c4, 0x27a), (0xc00002c5, 0x3e6),
    (0xc00002c6, 0x1075), (0xc00002c7, 0x1076), (0xc00002c8, 0x27b), (0xc00002c9, 0x4ed),
    (0xc00002ca, 0x10e8), (0xc00002cb, 0x2138), (0xc00002cc, 0x4e3), (0xc00002cd, 0x2139),
    (0xc00002ce, 0x27c), (0xc00002cf, 0x49d), (0xc00002d0, 0x213a), (0xc00002d1, 0x27d),
    (0xc00002d2, 0x27e), (0xc00002d3, 0x15), (0xc00002d4, 0x2141), (0xc00002d5, 0x2142),
    (0xc00002d6, 0x2143), (0xc00002d7, 0x2144), (0xc00002d8, 0x2145), (0xc00002d9, 0x2146),
    (0xc00002da, 0x2147), (0xc00002db, 0x2148), (0xc00002dc, 0x2149), (0xc00002dd, 0x32),
    (0xc00002de, 0x27f), (0xc00002df, 0x2151), (0xc00002e0, 0x2152), (0xc00002e1, 0x2153),
    (0xc00002e2, 0x2154), (0xc00002e3, 0x215d), (0xc00002e4, 0x2163), (0xc00002e5, 0x2164),
    (0xc00002e6, 0x2165), (0xc00002e7, 0x216d), (0xc00002e8, 0x280), (0xc00002e9, 0x577),
    (0xc00002ea, 0x52), (0xc00002eb, 0x281), (0xc00002ec, 0x2171), (0xc00002ed, 0x2172),
    (0xc00002f0, 0x2), (0xc00002fe, 0x45b), (0xc00002ff, 0x4e7), (0xc0000300, 0x4e6),
    (0xc0000301, 0x106f), (0xc0000302, 0x1074), (0xc0000303, 0x106e), (0xc0000304, 0x12e),
    (0xc000030c, 0x792), (0xc000030d, 0x793), (0xc0000320, 0x4ef), (0xc0000321, 0x4f0),
    (0xc0000350, 0x4e8), (0xc0000352, 0x177d), (0xc0000353, 0x282), (0xc0000354, 0x504),
    (0xc0000355, 0x283), (0xc0000357, 0x217c), (0xc0000358, 0x2182), (0xc0000359, 0xc1),
    (0xc000035a, 0xc1), (0xc000035c, 0x572), (0xc000035d, 0x4eb), (0xc000035f, 0x286),
    (0xc0000361, 0x4ec), (0xc0000362, 0x4ec), (0xc0000363, 0x4ec), (0xc0000364, 0x4ec),
    (0xc0000365, 0x287), (0xc0000366, 0x288), (0xc0000368, 0x289), (0xc0000369, 0x28a),
    (0xc000036a, 0x28b), (0xc000036b, 0x4fb), (0xc000036c, 0x4fb), (0xc000036d, 0x28c),
    (0xc000036e, 0x28d), (0xc000036f, 0x4fc), (0xc0000371, 0x21ac), (0xc0000372, 0x312),
    (0xc0000373, 0x8), (0xc0000374, 0x54f), (0xc0000388, 0x4f1), (0xc000038e, 0x28e),
    (0xc0000401, 0x78c), (0xc0000402, 0x78d), (0xc0000403, 0x78e), (0xc0000404, 0x217b),
    (0xc0000405, 0x219d), (0xc0000406, 0x219f), (0xc0000407, 0x28f), (0xc0000408, 0x52e),
    (0xc0000409, 0x502), (0xc0000410, 0x503), (0xc0000411, 0x290), (0xc0000412, 0x505),
    (0xc0000413, 0x78f), (0xc0000414, 0x506), (0xc0000416, 0x8), (0xc0000417, 0x508),
    (0xc0000418, 0x791), (0xc0000419, 0x215b), (0xc000041a, 0x21ba), (0xc000041b, 0x21bb),
    (0xc000041c, 0x21bc), (0xc000041d, 0x2c9), (0xc0000420, 0x29c), (0xc0000421, 0x219),
    (0xc0000423, 0x300), (0xc0000424, 0x4fb), (0xc0000425, 0x3fa), (0xc0000426, 0x301),
    (0xc0000427, 0x299), (0xc0000428, 0x241), (0xc0000429, 0x307), (0xc000042a, 0x308),
    (0xc000042b, 0x50c), (0xc000042c, 0x2e4), (0xc0000432, 0x509), (0xc0000433, 0xaa),
    (0xc0000434, 0xaa), (0xc0000435, 0x4c8), (0xc0000441, 0x1781), (0xc0000442, 0x1782),
    (0xc0000443, 0x1783), (0xc0000444, 0x1784), (0xc0000445, 0x1785), (0xc0000446, 0x513),
    (0xc0000450, 0x50b), (0xc0000451, 0x3b92), (0xc0000452, 0x3bc3), (0xc0000453, 0x5bb),
    (0xc0000454, 0x5be), (0xc0000455, 0x6), (0xc0000456, 0x57), (0xc0000457, 0x57),
    (0xc0000458, 0x57), (0xc0000459, 0xbea), (0xc0000460, 0x138), (0xc0000461, 0x13a),
    (0xc0000462, 0x3cfc), (0xc0000463, 0x13c), (0xc0000464, 0x141), (0xc0000465, 0x13b),
    (0xc0000466, 0x40), (0xc0000467, 0x20), (0xc0000468, 0x142), (0xc0000469, 0x3d00),
    (0xc000046a, 0x151), (0xc000046b, 0x152), (0xc000046c, 0x153), (0xc000046d, 0x156),
    (0xc000046e, 0x157), (0xc000046f, 0x158), (0xc0000470, 0x143), (0xc0000471, 0x144),
    (0xc0000472, 0x146), (0xc0000473, 0x14b), (0xc0000474, 0x147), (0xc0000475, 0x148),
    (0xc0000476, 0x149), (0xc0000477, 0x14a), (0xc0000478, 0x14c), (0xc0000479, 0x14d),
    (0xc000047a, 0x14e), (0xc000047b, 0x14f), (0xc000047c, 0x150), (0xc000047d, 0x5b4),
    (0xc000047e, 0x3d07), (0xc000047f, 0x3d08), (0xc0000480, 0x40), (0xc0000481, 0x7e),
    (0xc0000482, 0x7e), (0xc0000483, 0x1e3), (0xc0000486, 0x159), (0xc0000487, 0x1f),
    (0xc0000488, 0x15a), (0xc0000489, 0x3d0f), (0xc000048a, 0x32a), (0xc000048b, 0x32c),
    (0xc000048c, 0x15b), (0xc000048d, 0x15c), (0xc000048e, 0x162), (0xc000048f, 0x15d),
    (0xc0000490, 0x491), (0xc0000491, 0x2), (0xc0000492, 0x490), (0xc0000493, 0x492),
    (0xc0000494, 0x307), (0xc0000495, 0x15), (0xc0000496, 0x163), (0xc0000497, 0x3d5a),
    (0xc0000499, 0x167), (0xc000049a, 0x168), (0xc000049b, 0x12e), (0xc000049c, 0x169),
    (0xc000049d, 0x16f), (0xc000049e, 0x170), (0xc000049f, 0x49f), (0xc00004a0, 0x4a0),
    (0xc00004a1, 0x18f), (0xc0000500, 0x60e), (0xc0000501, 0x60f), (0xc0000502, 0x610),
    (0xc0000503, 0x15), (0xc0000504, 0x13f), (0xc0000505, 0x140), (0xc0000506, 0x5bf),
    (0xc0000507, 0xaa), (0xc0000508, 0x5e0), (0xc0000509, 0x5e1), (0xc000050b, 0x112b),
    (0xc000050e, 0x115c), (0xc000050f, 0x10d3), (0xc0000510, 0x4df), (0xc0000511, 0x32e),
    (0xc0000512, 0x5), (0xc0000513, 0x180), (0xc0000514, 0x115d), (0xc0000602, 0x675),
    (0xc0000604, 0x677), (0xc0000606, 0x679), (0xc000060a, 0x67c), (0xc000060b, 0x67d),
    (0xc0000700, 0x54f), (0xc0000701, 0x54f), (0xc0000702, 0x57), (0xc0000703, 0x54f),
    (0xc0000704, 0x32), (0xc0000705, 0x57), (0xc0000706, 0x57), (0xc0000707, 0x32),
    (0xc0000708, 0x54f), (0xc0000709, 0x30b), (0xc000070a, 0x6), (0xc000070b, 0x6),
    (0xc000070c, 0x6), (0xc000070d, 0x6), (0xc000070e, 0x6), (0xc000070f, 0x6), (0xc0000710, 0x1),
    (0xc0000711, 0x1), (0xc0000712, 0x50d), (0xc0000713, 0x310), (0xc0000714, 0x52e),
    (0xc0000715, 0x5b7), (0xc0000716, 0x7b), (0xc0000717, 0x459), (0xc0000718, 0x54f),
    (0xc0000719, 0x54f), (0xc000071a, 0x54f), (0xc000071b, 0x1), (0xc000071c, 0x57),
    (0xc000071d, 0x1), (0xc000071e, 0x1), (0xc000071f, 0x1), (0xc0000720, 0x1), (0xc0000721, 0x1),
    (0xc0000722, 0x72b), (0xc0000723, 0x1f), (0xc0000724, 0x1f), (0xc0000725, 0x1f),
    (0xc0000726, 0x1f), (0xc0000800, 0x30c), (0xc0000801, 0x21a4), (0xc0000802, 0x50f),
    (0xc0000804, 0x510), (0xc0000805, 0x1ac1), (0xc0000806, 0x1ac3), (0xc0000808, 0x319),
    (0xc0000809, 0x31a), (0xc000080a, 0x31b), (0xc000080b, 0x31c), (0xc000080c, 0x31d),
    (0xc000080d, 0x31e), (0xc000080e, 0x31f), (0xc000080f, 0x4d5), (0xc0000810, 0x328),
    (0xc0000811, 0x54f), (0xc0000901, 0xdc), (0xc0000902, 0xdd), (0xc0000903, 0xde),
    (0xc0000904, 0xdf), (0xc0000905, 0xe0), (0xc0000906, 0xe1), (0xc0000907, 0xe2),
    (0xc0000908, 0x317), (0xc0000909, 0x322), (0xc0000910, 0x326), (0xc0009898, 0x29e),
    (0xc000a002, 0x17), (0xc000a003, 0x139f), (0xc000a004, 0x154), (0xc000a005, 0x155),
    (0xc000a006, 0x32b), (0xc000a007, 0x32), (0xc000a010, 0xea), (0xc000a011, 0xea),
    (0xc000a012, 0x4d0), (0xc000a013, 0x32), (0xc000a014, 0x4d1), (0xc000a080, 0x314),
    (0xc000a081, 0x315), (0xc000a082, 0x316), (0xc000a083, 0x5b9), (0xc000a084, 0x5ba),
    (0xc000a085, 0x5bc), (0xc000a086, 0x5bd), (0xc000a087, 0x21bd), (0xc000a088, 0x21be),
    (0xc000a089, 0x21c6), (0xc000a100, 0x3bc4), (0xc000a101, 0x3bc5), (0xc000a121, 0x3bd9),
    (0xc000a122, 0x3bda), (0xc000a123, 0x3bdb), (0xc000a124, 0x3bdc), (0xc000a125, 0x3bdd),
    (0xc000a126, 0x3bde), (0xc000a141, 0x3c28), (0xc000a142, 0x3c29), (0xc000a143, 0x3c2a),
    (0xc000a145, 0x3c2b), (0xc000a146, 0x3c2c), (0xc000a200, 0x109a), (0xc000a201, 0x109c),
    (0xc000a202, 0x109d), (0xc000a203, 0x5), (0xc000a281, 0x1130), (0xc000a282, 0x1131),
    (0xc000a283, 0x1132), (0xc000a284, 0x1133), (0xc000a285, 0x1134), (0xc000a2a1, 0x1158),
    (0xc000a2a2, 0x1159), (0xc000a2a3, 0x115a), (0xc000a2a4, 0x115b), (0xc000ce01, 0x171),
    (0xc000ce02, 0x172), (0xc000ce03, 0x173), (0xc000ce04, 0x174), (0xc000ce05, 0x181),
    (0xc000cf00, 0x166), (0xc000cf01, 0x16a), (0xc000cf02, 0x16b), (0xc000cf03, 0x16c),
    (0xc000cf06, 0x177), (0xc000cf07, 0x178), (0xc000cf08, 0x179), (0xc000cf09, 0x17a),
    (0xc000cf0a, 0x17b), (0xc000cf0b, 0x17c), (0xc000cf0c, 0x17d), (0xc000cf0d, 0x17e),
    (0xc000cf0e, 0x17f), (0xc000cf0f, 0x182), (0xc000cf10, 0x183), (0xc000cf11, 0x184),
    (0xc000cf12, 0x185), (0xc000cf13, 0x186), (0xc000cf14, 0x187), (0xc000cf15, 0x188),
    (0xc000cf16, 0x189), (0xc000cf17, 0x18a), (0xc000cf18, 0x18b), (0xc000cf19, 0x18c),
    (0xc000cf1a, 0x18d), (0xc000cf1b, 0x18e)]
/-- `to_win32_code(code)`, which gives a `DWORD` -/
def to_win32_code (code : BitVec 32) : BitVec 32 :=
  if (0#32).sle code then 0 else switch win32_cases (-1) (code.signExtend 64)

/-- `as_generic_code(code)` -/
def as_generic_code (P : Platform) (code : StatusCode (BitVec 64) (BitVec 32)) :
    StatusCode (BitVec 64) (BitVec 32) :=
  .make (GenericDomain.codes P) (to_generic_code code.m_code)

/-- `as_win32_code(code)` -/
def as_win32_code (code : StatusCode (BitVec 64) (BitVec 32)) :
    StatusCode (BitVec 64) (BitVec 32) :=
  ⟨Win32Domain.codes.make_status_code_domain, to_win32_code code.m_code⟩

/-! ### Looking a status up by its bits -/

/-- The bits of a status, as the unsigned number that the cases are written as. -/
def pattern (code : BitVec 32) : BitVec 64 := code.setWidth 64

/-- No case has the bits of the status. -/
def Unlisted {γ : Type} (cases : List (BitVec 64 × γ)) (code : BitVec 32) : Prop :=
  ∀ c ∈ cases, c.1 ≠ pattern code

/-- A status is converted to what the case of its bits has, or else, if negative, to `unknown`. -/
structure ByPattern {γ ρ : Type} (cases : List (BitVec 64 × γ)) (give : γ → ρ) (unknown : ρ)
    (code : BitVec 32) (result : ρ) : Prop where
  listed : ∀ c ∈ cases, c.1 = pattern code → result = give c.2
  unlisted : code.toInt < 0 → Unlisted cases code → result = unknown

/-- A case is the bits of a negative status, with zeros before them. -/
abbrev OfNegative (label : BitVec 64) : Prop := 0x80000000 ≤ label ∧ label ≤ 0xffffffff

theorem generic_labels : ∀ c ∈ cases, OfNegative c.1 ∧ c.2 ≠ .Unknown := by
  have hall : (cases.all fun c => OfNegative c.1 ∧ c.2 ≠ .Unknown) = true := by decide +kernel
  exact fun c hc => of_decide_eq_true (List.all_eq_true.mp hall c hc)

theorem win32_labels : ∀ c ∈ win32_cases, OfNegative c.1 ∧ c.2 ≠ -1 := by
  have hall : (win32_cases.all fun c => OfNegative c.1 ∧ c.2 ≠ -1) = true := by decide +kernel
  exact fun c hc => of_decide_eq_true (List.all_eq_true.mp hall c hc)

theorem negative_of_pattern {code : BitVec 32} (h : OfNegative (pattern code)) :
    code.msb = true := by
  have hle := BitVec.le_def.mp h.1
  rw [pattern, BitVec.toNat_setWidth_of_le (by decide)] at hle
  rw [BitVec.msb_eq_decide, decide_eq_true_iff]
  exact hle

/-- What the cast gives for a negative status is above every case. -/
theorem ne_signExtend {label : BitVec 64} (hlabel : OfNegative label) {code : BitVec 32}
    (hnegative : code.msb = true) : label ≠ code.signExtend 64 := by
  rintro rfl
  have hle := BitVec.le_def.mp hlabel.2
  have hmost : (0xffffffff : BitVec 64).toNat = 0xffffffff := rfl
  rw [BitVec.toNat_signExtend, hnegative, if_pos rfl] at hle
  omega

section Lookup

variable {γ ρ : Type} {cases : List (BitVec 64 × γ)}

/-- **No negative status reaches a case.** -/
theorem switch_signExtend (hlabels : ∀ c ∈ cases, OfNegative c.1) (default : γ)
    {code : BitVec 32} (hnegative : code.msb = true) :
    switch cases default (code.signExtend 64) = default := by
  rcases switch_cases cases default (code.signExtend 64) with hdefault | ⟨c, hc, heq, -⟩
  · exact hdefault
  · exact absurd heq (ne_signExtend (hlabels c hc) hnegative)

/-- Converted through the cast, a status is converted by its bits if no case has them. -/
theorem byPattern_iff {default : γ} (hlabels : ∀ c ∈ cases, OfNegative c.1) {give : γ → ρ}
    (hgive : ∀ c ∈ cases, give c.2 ≠ give default) (success : γ) (code : BitVec 32) :
    ByPattern cases give (give default) code
        (give (if (0#32).sle code then success else switch cases default (code.signExtend 64))) ↔
      Unlisted cases code := by
  constructor
  · intro h c hc heq
    have hnegative : code.msb = true := negative_of_pattern (heq ▸ hlabels c hc)
    have hresult := h.listed c hc heq
    rw [BitVec.zero_sle_eq_not_msb, hnegative, Bool.not_true, if_neg Bool.false_ne_true,
      switch_signExtend hlabels default hnegative] at hresult
    exact hgive c hc hresult.symm
  · intro hunlisted
    refine ⟨fun c hc heq => absurd heq (hunlisted c hc), fun hlt _ => ?_⟩
    have hnegative : code.msb = true := by
      rw [BitVec.msb_eq_toInt, decide_eq_true_iff]
      exact hlt
    rw [BitVec.zero_sle_eq_not_msb, hnegative, Bool.not_true, if_neg Bool.false_ne_true,
      switch_signExtend hlabels default hnegative]

end Lookup

/-! ### The two conversions -/

theorem generic_by_pattern (P : Platform) (code : StatusCode (BitVec 64) (BitVec 32)) :
    ByPattern cases (StatusCode.make (GenericDomain.codes P))
        (.make (GenericDomain.codes P) .Unknown) code.m_code (as_generic_code P code) ↔
      Unlisted cases code.m_code := by
  refine byPattern_iff (fun c hc => (generic_labels c hc).1) (fun c hc heq => ?_) .Success _
  have hvalue : c.2.value P = -1 := congrArg StatusCode.m_code heq
  exact (generic_labels c hc).2 ((Errno.value_eq_unknown P c.2).mp hvalue)

theorem win32_by_pattern (code : StatusCode (BitVec 64) (BitVec 32)) :
    ByPattern win32_cases (StatusCode.mk Win32Domain.ID) ⟨Win32Domain.ID, -1⟩ code.m_code
        (as_win32_code code) ↔
      Unlisted win32_cases code.m_code :=
  byPattern_iff (fun c hc => (win32_labels c hc).1)
    (fun c hc heq => (win32_labels c hc).2 (congrArg StatusCode.m_code heq)) 0 _

/--
**A status is converted by its bits exactly if neither table has a case for them**: the
statuses that the tables are for are unknown to both.
-/
theorem converts_by_pattern_iff (P : Platform) (code : StatusCode (BitVec 64) (BitVec 32)) :
    ByPattern cases (StatusCode.make (GenericDomain.codes P))
          (.make (GenericDomain.codes P) .Unknown) code.m_code (as_generic_code P code) ∧
        ByPattern win32_cases (StatusCode.mk Win32Domain.ID) ⟨Win32Domain.ID, -1⟩ code.m_code
          (as_win32_code code) ↔
      Unlisted cases code.m_code ∧ Unlisted win32_cases code.m_code :=
  and_congr (generic_by_pattern P code) (win32_by_pattern code)

/-- `STATUS_ACCESS_VIOLATION` is a case of `to_generic_code`, and is converted to `Unknown`. -/
theorem access_violation_unknown : ¬ ∀ (P : Platform) (code : StatusCode (BitVec 64) (BitVec 32)),
    ByPattern cases (StatusCode.make (GenericDomain.codes P))
        (.make (GenericDomain.codes P) .Unknown) code.m_code (as_generic_code P code) ∧
      ByPattern win32_cases (StatusCode.mk Win32Domain.ID) ⟨Win32Domain.ID, -1⟩ code.m_code
        (as_win32_code code) := by
  intro hclaim
  have h := hclaim .linux ⟨ID, 0xc0000005⟩
  have hlisted : (0xc0000005, Errno.PermissionDenied) ∈ cases := by decide +kernel
  have hcode := congrArg StatusCode.m_code (h.1.listed _ hlisted rfl)
  revert hcode
  decide +kernel

end NTDomain

end Hyperion
