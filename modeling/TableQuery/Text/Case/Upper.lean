import TableQuery.Text.Case.Run

/-! The table of upper case. -/
namespace TableQuery.Text

def upperRuns : List CaseRun := CaseRun.spaced 0
  [(97, 25, 1, -32), (59, 0, 1, 743), (43, 22, 1, -32), (2, 6, 1, -32), (1, 0, 1, 121),
   (2, 46, 2, -1), (2, 0, 1, -232), (2, 4, 2, -1), (3, 14, 2, -1), (3, 44, 2, -1), (3, 4, 2, -1),
   (1, 0, 1, -300), (1, 0, 1, 195), (3, 2, 2, -1), (3, 0, 1, -1), (4, 0, 1, -1), (6, 0, 1, -1),
   (3, 0, 1, 97), (4, 0, 1, -1), (1, 0, 1, 163), (4, 0, 1, 130), (3, 4, 2, -1), (3, 0, 1, -1),
   (5, 0, 1, -1), (3, 0, 1, -1), (4, 2, 2, -1), (3, 0, 1, -1), (4, 0, 1, -1), (2, 0, 1, 56),
   (6, 0, 1, -1), (1, 0, 1, -2), (2, 0, 1, -1), (1, 0, 1, -2), (2, 0, 1, -1), (1, 0, 1, -2),
   (2, 14, 2, -1), (1, 0, 1, -79), (2, 16, 2, -1), (3, 0, 1, -1), (1, 0, 1, -2), (2, 0, 1, -1),
   (4, 38, 2, -1), (4, 16, 2, -1), (9, 0, 1, -1), (3, 1, 1, 10815), (2, 0, 1, -1), (5, 8, 2, -1),
   (1, 0, 1, 10783), (1, 0, 1, 10780), (1, 0, 1, 10782), (1, 0, 1, -210), (1, 0, 1, -206),
   (2, 1, 1, -205), (2, 0, 1, -202), (2, 0, 1, -203), (1, 0, 1, 42319), (4, 0, 1, -205),
   (1, 0, 1, 42315), (2, 0, 1, -207), (2, 0, 1, 42280), (1, 0, 1, 42308), (2, 0, 1, -209),
   (1, 0, 1, -211), (1, 0, 1, 42308), (1, 0, 1, 10743), (1, 0, 1, 42305), (3, 0, 1, -211),
   (2, 0, 1, 10749), (1, 0, 1, -213), (3, 0, 1, -214), (8, 0, 1, 10727), (3, 0, 1, -218),
   (2, 0, 1, 42307), (1, 0, 1, -218), (4, 0, 1, 42282), (1, 0, 1, -218), (1, 0, 1, -69),
   (1, 1, 1, -217), (1, 0, 1, -71), (6, 0, 1, -219), (11, 0, 1, 42261), (1, 0, 1, 42258),
   (167, 0, 1, 84), (44, 2, 2, -1), (4, 0, 1, -1), (4, 2, 1, 130), (47, 0, 1, -38), (1, 2, 1, -37),
   (2, 16, 1, -32), (1, 0, 1, -31), (1, 8, 1, -32), (1, 0, 1, -64), (1, 1, 1, -63), (2, 0, 1, -62),
   (1, 0, 1, -57), (4, 0, 1, -47), (1, 0, 1, -54), (1, 0, 1, -8), (2, 22, 2, -1), (1, 0, 1, -86),
   (1, 0, 1, -80), (1, 0, 1, 7), (1, 0, 1, -116), (2, 0, 1, -96), (3, 0, 1, -1), (3, 0, 1, -1),
   (53, 31, 1, -32), (1, 15, 1, -80), (2, 32, 2, -1), (10, 52, 2, -1), (3, 12, 2, -1),
   (1, 0, 1, -15), (2, 94, 2, -1), (50, 37, 1, -48), (2890, 42, 1, 3008), (3, 2, 1, 3008),
   (761, 5, 1, -8), (2179, 0, 1, -6254), (1, 0, 1, -6253), (1, 0, 1, -6244), (1, 1, 1, -6242),
   (1, 0, 1, -6243), (1, 0, 1, -6236), (1, 0, 1, -6181), (1, 0, 1, 35266), (241, 0, 1, 35332),
   (4, 0, 1, 3814), (17, 0, 1, 35384), (115, 148, 2, -1), (6, 0, 1, -59), (6, 94, 2, -1),
   (1, 7, 1, 8), (9, 5, 1, 8), (11, 7, 1, 8), (9, 7, 1, 8), (9, 5, 1, 8), (12, 6, 2, 8),
   (9, 7, 1, 8), (9, 1, 1, 74), (1, 3, 1, 86), (1, 1, 1, 100), (1, 1, 1, 128), (1, 1, 1, 112),
   (1, 1, 1, 126), (51, 1, 1, 8), (13, 0, 1, -7205), (18, 1, 1, 8), (15, 1, 1, 8), (4, 0, 1, 7),
   (361, 0, 1, -28), (34, 15, 1, -16), (5, 0, 1, -1), (844, 25, 1, -26), (1863, 47, 1, -48),
   (2, 0, 1, -1), (4, 0, 1, -10795), (1, 0, 1, -10792), (2, 4, 2, -1), (7, 0, 1, -1), (3, 0, 1, -1),
   (11, 98, 2, -1), (9, 2, 2, -1), (5, 0, 1, -1), (13, 37, 1, -7264), (2, 0, 1, -7264),
   (6, 0, 1, -7264), (30996, 44, 2, -1), (20, 26, 2, -1), (136, 12, 2, -1), (4, 60, 2, -1),
   (11, 2, 2, -1), (3, 8, 2, -1), (5, 0, 1, -1), (5, 2, 2, -1), (1, 0, 1, 48), (3, 18, 2, -1),
   (12, 14, 2, -1), (5, 2, 2, -1), (7, 0, 1, -1), (6, 2, 2, -1), (29, 0, 1, -1), (861, 0, 1, -928),
   (29, 79, 1, -38864), (21378, 25, 1, -32), (1230, 39, 1, -40), (137, 35, 1, -40),
   (156, 10, 1, -39), (2, 14, 1, -39), (2, 6, 1, -39), (2, 1, 1, -39), (1796, 50, 1, -64),
   (3022, 31, 1, -32), (21889, 31, 1, -32), (31395, 33, 1, -34)]

/-- Greek letters with an iota below, which is written after them. They come in rows of eight. -/
def iotaExpansions : List (Nat × List Nat) :=
  [(8064, 7944), (8072, 7944), (8080, 7976), (8088, 7976), (8096, 8040), (8104, 8040)].flatMap
    fun (first, image) => (List.range 8).map fun i => (first + i, [image + i, 921])

def upperExpansions : List (Nat × List Nat) := iotaExpansions ++
  [(223, [83, 83]), (329, [700, 78]), (496, [74, 780]), (912, [921, 776, 769]),
   (944, [933, 776, 769]), (1415, [1333, 1362]), (7830, [72, 817]), (7831, [84, 776]),
   (7832, [87, 778]), (7833, [89, 778]), (7834, [65, 702]), (8016, [933, 787]),
   (8018, [933, 787, 768]), (8020, [933, 787, 769]), (8022, [933, 787, 834]), (8114, [8122, 921]),
   (8115, [913, 921]), (8116, [902, 921]), (8118, [913, 834]), (8119, [913, 834, 921]),
   (8124, [913, 921]), (8130, [8138, 921]), (8131, [919, 921]), (8132, [905, 921]),
   (8134, [919, 834]), (8135, [919, 834, 921]), (8140, [919, 921]), (8146, [921, 776, 768]),
   (8147, [921, 776, 769]), (8150, [921, 834]), (8151, [921, 776, 834]), (8162, [933, 776, 768]),
   (8163, [933, 776, 769]), (8164, [929, 787]), (8166, [933, 834]), (8167, [933, 776, 834]),
   (8178, [8186, 921]), (8179, [937, 921]), (8180, [911, 921]), (8182, [937, 834]),
   (8183, [937, 834, 921]), (8188, [937, 921]), (64256, [70, 70]), (64257, [70, 73]),
   (64258, [70, 76]), (64259, [70, 70, 73]), (64260, [70, 70, 76]), (64261, [83, 84]),
   (64262, [83, 84]), (64275, [1348, 1350]), (64276, [1348, 1333]), (64277, [1348, 1339]),
   (64278, [1358, 1350]), (64279, [1348, 1341])]

end TableQuery.Text
